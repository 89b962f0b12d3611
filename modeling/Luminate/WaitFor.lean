import Mathlib.Logic.Relation
import Mathlib.Order.Defs.PartialOrder

/-! # Waiting for held resources

Agents hold resources and want others. An agent waits for every agent that holds a
resource it wants; a cycle of such waits is a deadlock. -/
namespace WaitFor

universe u v

variable {Agent : Type u} {Resource : Type v}

def Waits (holds wants : Agent → Resource → Prop) (a b : Agent) : Prop := ∃ r, wants a r ∧ holds b r

def Acyclic (waits : Agent → Agent → Prop) : Prop := ∀ a, ¬ Relation.TransGen waits a a

theorem Acyclic.mono (h : Acyclic waits) (hs : ∀ a b, fewer a b → waits a b) : Acyclic fewer :=
  fun a hc => h a (Relation.TransGen.mono hs a a hc)

section

variable [Preorder Resource] {holds wants : Agent → Resource → Prop}

/-- What an agent holds comes before what it wants, where the holder of the latter wants
something itself. -/
def Ordered (holds wants : Agent → Resource → Prop) : Prop :=
  ∀ a b r q p, holds a r → wants a q → holds b q → wants b p → r < q

theorem Ordered.chain (h : Ordered holds wants) (hab : Relation.TransGen (Waits holds wants) a b)
    (hp : wants b p) : ∃ x r o q, wants a r ∧ holds x r ∧ wants x o ∧ holds b q ∧ r ≤ q := by
  induction hab generalizing p with
  | single hwa =>
    obtain ⟨r, hw, hh⟩ := hwa
    exact ⟨_, r, p, r, hw, hh, hp, hh, le_rfl⟩
  | tail _ hwa ih =>
    obtain ⟨s, hw, hh⟩ := hwa
    obtain ⟨x, r, o, q, hr, hx, ho, hq, hle⟩ := ih hw
    have hlt : q < s := h _ _ q s p hq hw hh hp
    exact ⟨x, r, o, s, hr, hx, ho, hh, le_trans hle (le_of_lt hlt)⟩

theorem Ordered.acyclic (h : Ordered holds wants) : Acyclic (Waits holds wants) := by
  intro a hc
  obtain ⟨b, ⟨p, hw, -⟩, -⟩ := Relation.TransGen.head'_iff.1 hc
  obtain ⟨x, r, o, q, hr, hx, ho, hq, hle⟩ := h.chain hc hw
  have hlt : q < r := h a x q r o hq hr hx ho
  exact lt_irrefl r (lt_of_le_of_lt hle hlt)

end

end WaitFor
