import Mathlib.Data.List.Forall2

/-! # Fallible checks

Validation code returns the first failing check. These rules say what holds
when every check of a sequence, or of a loop, succeeded. -/
namespace Checks

open List

universe u v

variable {ε : Type u} {α β : Type v}

/-- `if !condition { return Err(error) }`. -/
def ensure (condition : Bool) (error : ε) : Except ε Unit :=
  if condition then .ok () else .error error

def checkAll (check : α → Except ε Unit) : List α → Except ε Unit
  | [] => .ok ()
  | a :: rest => check a >>= fun _ => checkAll check rest

/-- Unicode `White_Space`, which `str::trim` removes. -/
def isWhiteSpace (c : Char) : Bool :=
  (0x9 ≤ c.toNat && c.toNat ≤ 0xd) || (0x2000 ≤ c.toNat && c.toNat ≤ 0x200a) ||
    [0x20, 0x85, 0xa0, 0x1680, 0x2028, 0x2029, 0x202f, 0x205f, 0x3000].contains c.toNat

def isBlank (text : String) : Bool := text.toList.all isWhiteSpace

@[simp] theorem ok_bind (a : α) (f : α → Except ε β) : (Except.ok a >>= f) = f a := rfl

@[simp] theorem error_bind (e : ε) (f : α → Except ε β) : (Except.error e >>= f) = .error e := rfl

theorem ok_pair {a c : α} {b d : β} (h : (.ok (a, b) : Except ε (α × β)) = .ok (c, d)) :
    a = c ∧ b = d := Prod.mk.inj (Except.ok.inj h)

variable {f : α → Except ε β} {l : List α} {results : List β}

@[simp] theorem bind_ok_iff {x : Except ε α} {b : β} :
    (x >>= f) = .ok b ↔ ∃ a, x = .ok a ∧ f a = .ok b := by
  cases x <;> simp [bind, Except.bind]

@[simp high] theorem then_ok_iff {β : Type} {x : Except ε Unit} {f : Unit → Except ε β} {b : β} :
    (x >>= f) = .ok b ↔ x = .ok () ∧ f () = .ok b := by
  cases x <;> simp [bind, Except.bind]

section

variable {ε α β : Type} {x : ExceptT ε Option α} {f : α → ExceptT ε Option β}

/-- Of a fallible computation that may also not end. -/
theorem run_ok_iff {b : β} : (x >>= f).run = some (.ok b) ↔
    ∃ a, x.run = some (.ok a) ∧ (f a).run = some (.ok b) := by
  rw [ExceptT.run_bind]
  rcases x.run with _ | _ | a <;> simp

theorem run_error_iff {e : ε} : (x >>= f).run = some (.error e) ↔
    x.run = some (.error e) ∨ ∃ a, x.run = some (.ok a) ∧ (f a).run = some (.error e) := by
  rw [ExceptT.run_bind]
  rcases x.run with _ | _ | a <;> simp

end

theorem mapError_ok_iff {ε' : Type u} {f : ε → ε'} {x : Except ε α} {a : α} :
    x.mapError f = .ok a ↔ x = .ok a := by
  cases x <;> simp [Except.mapError]

@[simp] theorem ensure_ok_iff {condition : Bool} {e : ε} :
    ensure condition e = .ok () ↔ condition = true := by
  cases condition <;> simp [ensure]

@[simp] theorem checkAll_ok_iff {check : α → Except ε Unit} :
    checkAll check l = .ok () ↔ ∀ a ∈ l, check a = .ok () := by
  induction l with
  | nil => simp [checkAll]
  | cons a rest ih => simp [checkAll, ih]

theorem mapM_cons_ok {a : α} {rest : List α} (h : (a :: rest).mapM f = .ok results) :
    ∃ b tail, f a = .ok b ∧ rest.mapM f = .ok tail ∧ results = b :: tail := by
  rw [mapM_cons] at h
  obtain ⟨b, hb, h⟩ := bind_ok_iff.1 h
  obtain ⟨tail, ht, h⟩ := bind_ok_iff.1 h
  exact ⟨b, tail, hb, ht, (Except.ok.inj h).symm⟩

theorem mapM_ok_eq_map {g : α → β}
    (hf : ∀ a b, f a = .ok b → b = g a) (h : l.mapM f = .ok results) : results = l.map g := by
  induction l generalizing results with
  | nil => exact (Except.ok.inj h).symm
  | cons a rest ih =>
    obtain ⟨b, tail, hb, ht, rfl⟩ := mapM_cons_ok h
    rw [hf a b hb, ih ht, map_cons]

theorem mapM_ok_of_mem (h : l.mapM f = .ok results) : ∀ a ∈ l, ∃ b, f a = .ok b := by
  induction l generalizing results with
  | nil => simp
  | cons a rest ih =>
    obtain ⟨b, tail, hb, ht, -⟩ := mapM_cons_ok h
    exact forall_mem_cons.2 ⟨⟨b, hb⟩, ih ht⟩

theorem mapM_ok_of_forall (h : ∀ a ∈ l, ∃ b, f a = .ok b) : ∃ results, l.mapM f = .ok results := by
  induction l with
  | nil => exact ⟨[], rfl⟩
  | cons a rest ih =>
    obtain ⟨⟨b, hb⟩, hr⟩ := forall_mem_cons.1 h
    obtain ⟨tail, ht⟩ := ih hr
    exact ⟨b :: tail, by rw [mapM_cons, hb, ht]; rfl⟩

theorem mapM_congr {g : α → Except ε β} (h : ∀ a ∈ l, f a = g a) : l.mapM f = l.mapM g := by
  induction l with
  | nil => rfl
  | cons a rest ih =>
    obtain ⟨ha, hr⟩ := forall_mem_cons.1 h
    rw [mapM_cons, mapM_cons, ha, ih hr]

theorem mapM_ok_length (h : l.mapM f = .ok results) : results.length = l.length := by
  induction l generalizing results with
  | nil => exact congrArg length (Except.ok.inj h).symm
  | cons a rest ih =>
    obtain ⟨b, tail, -, ht, rfl⟩ := mapM_cons_ok h
    rw [length_cons, length_cons, ih ht]

theorem mapM_ok_source (h : l.mapM f = .ok results) : ∀ b ∈ results, ∃ a ∈ l, f a = .ok b := by
  induction l generalizing results with
  | nil =>
    cases h
    exact fun b hb => absurd hb not_mem_nil
  | cons a rest ih =>
    obtain ⟨first, tail, hf, ht, rfl⟩ := mapM_cons_ok h
    intro b hb
    rcases mem_cons.1 hb with rfl | hb
    · exact ⟨a, mem_cons_self, hf⟩
    · obtain ⟨a', ha', hfa'⟩ := ih ht b hb
      exact ⟨a', mem_cons_of_mem a ha', hfa'⟩

theorem mapM_all_iff {P : β → Prop} :
    (∃ results, l.mapM f = .ok results ∧ ∀ b ∈ results, P b) ↔ ∀ a ∈ l, ∃ b, f a = .ok b ∧ P b := by
  constructor
  · rintro ⟨results, hok, hal⟩
    induction l generalizing results with
    | nil => exact fun a ha => absurd ha not_mem_nil
    | cons a rest ih =>
      obtain ⟨b, tail, hb, ht, rfl⟩ := mapM_cons_ok hok
      obtain ⟨hf, hr⟩ := forall_mem_cons.1 hal
      exact forall_mem_cons.2 ⟨⟨b, hb, hf⟩, ih tail ht hr⟩
  · intro h
    obtain ⟨results, hok⟩ := mapM_ok_of_forall fun a ha => (h a ha).imp fun _ hb => hb.1
    refine ⟨results, hok, fun b hb => ?_⟩
    obtain ⟨a, ha, hfa⟩ := mapM_ok_source hok b hb
    obtain ⟨b', hb', hP⟩ := h a ha
    rw [hfa] at hb'
    cases hb'
    exact hP

theorem exists_of_forall₂ {R : α → β → Prop} {left : List α} {right : List β}
    (h : Forall₂ R left right) {a : α} (ha : a ∈ left) : ∃ b ∈ right, R a b := by
  induction h with
  | nil => cases ha
  | cons hf _ ih =>
    rcases mem_cons.1 ha with rfl | ha
    · exact ⟨_, mem_cons_self, hf⟩
    · obtain ⟨b, hb, hr⟩ := ih ha
      exact ⟨b, mem_cons_of_mem _ hb, hr⟩

end Checks
