import XBlast.Foundation.Program

/-!
# Two runs of one program

A program that is run on two states answers the same in both when the parts of the states that it
looks at agree. `coupledWp` is the weakest precondition of two runs, for conditions on the common
answer and on the two states that are left. `Respects` is the case of a relation that the runs
keep. The rules follow those of `wp`, and a specification of one run may be used for the first of
the two.

Nothing here depends on a particular program.
-/

set_option autoImplicit false
set_option relaxedAutoImplicit false

namespace XBlast.Foundation.Program

variable {σ τ ε α β : Type}

/-- Two runs return the same value and meet `ok`, or stop with the same code and meet `error`. -/
def coupledWp (program : Program σ ε α) (ok : α → σ → σ → Prop) (error : ε → σ → σ → Prop)
    (first second : σ) : Prop :=
  (∃ value one other, program first = (.ok value, one) ∧ program second = (.ok value, other) ∧
    ok value one other) ∨
  ∃ code one other, program first = (.error code, one) ∧ program second = (.error code, other) ∧
    error code one other

/-- Two runs from related states answer the same and leave related states. -/
def Respects (relation : σ → σ → Prop) (program : Program σ ε α) : Prop :=
  ∀ first second, relation first second →
    program.coupledWp (fun _ ↦ relation) (fun _ ↦ relation) first second

variable {program : Program σ ε α} {ok ok' : α → σ → σ → Prop} {error error' : ε → σ → σ → Prop}
  {first second : σ}

/-! ### The rules -/

theorem coupledWp_pure {value : α} (hok : ok value first second) :
    coupledWp (pure value) ok error first second :=
  .inl ⟨_, _, _, rfl, rfl, hok⟩

theorem coupledWp_stop {code : ε} (herror : error code first second) :
    coupledWp (stop code) ok error first second :=
  .inr ⟨_, _, _, rfl, rfl, herror⟩

theorem coupledWp_gets {part : σ → α} (hpart : part first = part second)
    (hok : ok (part first) first second) : coupledWp (gets part) ok error first second :=
  .inl ⟨_, _, _, rfl, by rw [gets, hpart], hok⟩

variable {change : σ → σ} {done : Unit → σ → σ → Prop}

theorem coupledWp_modify (hdone : done () (change first) (change second)) :
    coupledWp (modify change) done error first second :=
  .inl ⟨_, _, _, rfl, rfl, hdone⟩

theorem coupledWp_mono (hprogram : program.coupledWp ok error first second)
    (hok : ∀ value first second, ok value first second → ok' value first second)
    (herror : ∀ code first second, error code first second → error' code first second) :
    program.coupledWp ok' error' first second := by
  obtain ⟨_, _, _, hfirst, hsecond, hmeets⟩ | ⟨_, _, _, hfirst, hsecond, hmeets⟩ := hprogram
  · exact .inl ⟨_, _, _, hfirst, hsecond, hok _ _ _ hmeets⟩
  · exact .inr ⟨_, _, _, hfirst, hsecond, herror _ _ _ hmeets⟩

variable {next : α → Program σ ε β}

theorem coupledWp_bind {done : β → σ → σ → Prop}
    (hprogram : program.coupledWp (fun value ↦ (next value).coupledWp done error) error first
      second) :
    (program >>= next).coupledWp done error first second := by
  obtain ⟨_, _, _, hfirst, hsecond, hmeets⟩ | ⟨_, _, _, hfirst, hsecond, hmeets⟩ := hprogram
  · rw [coupledWp, bind_of_ok hfirst, bind_of_ok hsecond]
    exact hmeets
  · exact .inr ⟨_, _, _, bind_of_error hfirst _, bind_of_error hsecond _, hmeets⟩

theorem coupledWp_stopIf {condition : Prop} [Decidable condition] {code : ε}
    (hstop : condition → error code first second) (hdone : ¬ condition → done () first second) :
    coupledWp (stopIf condition code) done error first second := by
  rw [stopIf]
  split_ifs with hcondition
  · exact coupledWp_stop (hstop hcondition)
  · exact coupledWp_pure (hdone hcondition)

theorem coupledWp_recover {value : ε → α}
    (hprogram : program.coupledWp ok (fun code ↦ ok (value code)) first second) :
    (program.recover value).coupledWp ok error first second := by
  obtain ⟨_, _, _, hfirst, hsecond, hmeets⟩ | ⟨_, _, _, hfirst, hsecond, hmeets⟩ := hprogram
  · exact .inl ⟨_, _, _, by rw [recover, hfirst], by rw [recover, hsecond], hmeets⟩
  · exact .inl ⟨_, _, _, by rw [recover, hfirst], by rw [recover, hsecond], hmeets⟩

theorem coupledWp_modifyOnError
    (hprogram : program.coupledWp ok
      (fun code first second ↦ error code (change first) (change second)) first second) :
    (program.modifyOnError change).coupledWp ok error first second := by
  obtain ⟨_, _, _, hfirst, hsecond, hmeets⟩ | ⟨_, _, _, hfirst, hsecond, hmeets⟩ := hprogram
  · exact .inl ⟨_, _, _, by rw [modifyOnError, hfirst], by rw [modifyOnError, hsecond], hmeets⟩
  · exact .inr ⟨_, _, _, by rw [modifyOnError, hfirst], by rw [modifyOnError, hsecond], hmeets⟩

/-- A program on a part that the states agree on runs the same on both. -/
theorem coupledWp_onPart {part : σ → τ} {replace : τ → σ → σ} {inner : Program τ ε α}
    (hpart : part first = part second)
    (hok : ∀ value changed, ok value (replace changed first) (replace changed second))
    (herror : ∀ code changed, error code (replace changed first) (replace changed second)) :
    (onPart part replace inner).coupledWp ok error first second := by
  rw [coupledWp, onPart, onPart, ← hpart]
  rcases inner (part first) with ⟨code | value, changed⟩
  · exact .inr ⟨_, _, _, rfl, rfl, herror code changed⟩
  · exact .inl ⟨_, _, _, rfl, rfl, hok value changed⟩

/-- What is known of the first run alone. -/
theorem coupledWp_and {single : α → σ → Prop} {failed : ε → σ → Prop}
    (hprogram : program.coupledWp ok error first second)
    (hsingle : program.wp single failed first) :
    program.coupledWp (fun value first second ↦ ok value first second ∧ single value first)
      (fun code first second ↦ error code first second ∧ failed code first) first second := by
  obtain ⟨_, _, _, hfirst, hsecond, hmeets⟩ | ⟨_, _, _, hfirst, hsecond, hmeets⟩ := hprogram
  · exact .inl ⟨_, _, _, hfirst, hsecond, hmeets, wp_ok hsingle hfirst⟩
  · exact .inr ⟨_, _, _, hfirst, hsecond, hmeets, wp_error hsingle hfirst⟩

/-- The answers and the states of two runs that are coupled by a relation. -/
theorem coupledWp_result {relation : σ → σ → Prop}
    (hprogram : program.coupledWp (fun _ ↦ relation) (fun _ ↦ relation) first second) :
    (program first).1 = (program second).1 ∧
      relation (program first).2 (program second).2 := by
  obtain ⟨_, _, _, hfirst, hsecond, hmeets⟩ | ⟨_, _, _, hfirst, hsecond, hmeets⟩ := hprogram
  · rw [hfirst, hsecond]
    exact ⟨rfl, hmeets⟩
  · rw [hfirst, hsecond]
    exact ⟨rfl, hmeets⟩

/-! ### Relations that are kept -/

variable {relation : σ → σ → Prop}

theorem respects_pure (value : α) : Respects relation (pure value : Program σ ε α) :=
  fun _ _ hrelation ↦ coupledWp_pure hrelation

theorem respects_stop (code : ε) : Respects relation (stop code : Program σ ε α) :=
  fun _ _ hrelation ↦ coupledWp_stop hrelation

theorem respects_stopIf (condition : Prop) [Decidable condition] (code : ε) :
    Respects relation (stopIf condition code) :=
  fun _ _ hrelation ↦ coupledWp_stopIf (fun _ ↦ hrelation) fun _ ↦ hrelation

theorem respects_gets {part : σ → α}
    (hpart : ∀ first second, relation first second → part first = part second) :
    Respects relation (gets part : Program σ ε α) :=
  fun first second hrelation ↦ coupledWp_gets (hpart first second hrelation) hrelation

theorem respects_modify
    (hchange : ∀ first second, relation first second → relation (change first) (change second)) :
    Respects relation (modify change : Program σ ε Unit) :=
  fun first second hrelation ↦ coupledWp_modify (hchange first second hrelation)

theorem Respects.bind (hprogram : Respects relation program)
    (hnext : ∀ value, Respects relation (next value)) : Respects relation (program >>= next) :=
  fun first second hrelation ↦ coupledWp_bind
    (coupledWp_mono (hprogram first second hrelation) hnext fun _ _ _ herror ↦ herror)

theorem Respects.ite {condition : Prop} [Decidable condition] {other : Program σ ε α}
    (hprogram : Respects relation program) (hother : Respects relation other) :
    Respects relation (if condition then program else other) := by
  split_ifs
  · exact hprogram
  · exact hother

theorem Respects.recover {value : ε → α} (hprogram : Respects relation program) :
    Respects relation (program.recover value) :=
  fun first second hrelation ↦ coupledWp_recover (hprogram first second hrelation)

theorem Respects.succeeds (hprogram : Respects relation program) :
    Respects relation program.succeeds :=
  (hprogram.bind fun _ ↦ respects_pure true).recover

end XBlast.Foundation.Program
