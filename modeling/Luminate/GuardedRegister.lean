import Mathlib.Data.List.Induction

/-! # Guarded registers

A register is overwritten by a sequence of entries. An entry may write a value,
and it is accepted or refused by looking at what the register holds. The value
at the end is the one of the last accepted write. -/
namespace GuardedRegister

universe u v

variable {Value : Type u} {Entry : Type v}
variable (write : Entry → Option Value) (accepts : Value → Entry → Bool)

def step (held : Value) (entry : Entry) : Value :=
  if accepts held entry then (write entry).getD held else held

def run (held : Value) (entries : List Entry) : Value := entries.foldl (step write accepts) held

/-- No entry that writes is accepted while the register holds `held`. -/
def Refuses (held : Value) (entries : List Entry) : Prop :=
  ∀ entry ∈ entries, (write entry).isSome → accepts held entry = false

variable {write accepts}

theorem Refuses.concat (h : Refuses write accepts held es)
    (hl : (write e).isSome → accepts held e = false) : Refuses write accepts held (es ++ [e]) := by
  intro other ho
  rcases List.mem_append.1 ho with hol | hn
  · exact h other hol
  · rw [List.mem_singleton.1 hn]
    exact hl

theorem run_append : run write accepts held (old ++ later) =
      run write accepts (run write accepts held old) later := by
  rw [run, List.foldl_append]
  rfl

theorem run_cons : run write accepts held (e :: es) =
      run write accepts (step write accepts held e) es := rfl

theorem step_of_accepted (hw : write e = some v) (ha : accepts held e) :
    step write accepts held e = v := by
  rw [step, if_pos ha, hw]
  rfl

theorem step_of_refused (h : (write e).isSome → accepts held e = false) :
    step write accepts held e = held := by
  rw [step]
  split
  case isFalse => rfl
  case isTrue ha =>
    cases hw : write e with
    | none => rfl
    | some v =>
      have hr := h (by simp [hw])
      rw [hr] at ha
      contradiction

theorem run_of_refuses (h : Refuses write accepts held es) : run write accepts held es = held := by
  induction es with
  | nil => rfl
  | cons e rest ih =>
    rw [run_cons, step_of_refused (h e List.mem_cons_self)]
    exact ih fun other ho => h other (List.mem_cons_of_mem _ ho)

/-- An accepted write stays where all later ones are refused. -/
theorem run_of_last (hw : write e = some v) (ha : accepts (run write accepts held old) e)
    (hl : Refuses write accepts v later) : run write accepts held (old ++ e :: later) = v := by
  rw [run_append, run_cons, step_of_accepted hw ha]
  exact run_of_refuses hl

theorem run_cases (held : Value) :
    (Refuses write accepts held es ∧ run write accepts held es = held) ∨
      ∃ old e later v, es = old ++ e :: later ∧
        write e = some v ∧ accepts (run write accepts held old) e ∧
        Refuses write accepts v later ∧ run write accepts held es = v := by
  induction es using List.reverseRecOn with
  | nil => exact .inl ⟨fun _ h => absurd h List.not_mem_nil, rfl⟩
  | append_singleton es last ih =>
    have hru : run write accepts held (es ++ [last]) =
        step write accepts (run write accepts held es) last := run_append
    by_cases hla : (write last).isSome ∧ accepts (run write accepts held es) last
    · obtain ⟨v, hv⟩ := Option.isSome_iff_exists.1 hla.1
      refine .inr ⟨es, last, [], v, rfl, hv, hla.2, ?_, ?_⟩
      · exact fun _ h => absurd h List.not_mem_nil
      · rw [hru, step_of_accepted hv hla.2]
    · have hr : (write last).isSome → accepts (run write accepts held es) last = false := by
        intro hw
        exact Bool.eq_false_iff.2 fun h => hla ⟨hw, h⟩
      rw [hru, step_of_refused hr]
      rcases ih with ⟨hre, hh⟩ | ⟨old, e, later, v, rfl, hw, ha, hl, hv⟩
      · rw [hh] at hr
        exact .inl ⟨hre.concat hr, hh⟩
      · rw [hv] at hr
        refine .inr ⟨old, e, later ++ [last], v, ?_, hw, ha, hl.concat hr, hv⟩
        rw [List.append_assoc, List.cons_append]

end GuardedRegister
