import Gatehouse.Filter.Chain

/-!
# How a run of hooks goes

The hooks of some filters run in order, each in the state that the one before it left, up to the
first that does not succeed. `Ran` says so of a run, with the filters whose hooks ran and what
stopped it: `exists_ran` says that there is such a run from every state on, and `Ran.runHooks_eq` that
it is the one that the gateway makes.
-/

namespace Gatehouse.Filter

/-- How a hook ends that does not succeed. -/
inductive Fault
  | error (e : Error)
  /-- It broke down. -/
  | panicked
  /-- The caller is gone. -/
  | givenUp
  deriving DecidableEq, Repr

/-- The end of a hook that does not succeed. -/
def Fault.ended : Fault → HookEnd
  | .error e => .failed e
  | .panicked => .panicked
  | .givenUp => .givenUp

theorem hookEnd_cases (ended : HookEnd) : ended = .passed ∨ ∃ fault : Fault, ended = fault.ended := by
  cases ended with
  | passed => exact .inl rfl
  | failed e => exact .inr ⟨.error e, rfl⟩
  | panicked => exact .inr ⟨.panicked, rfl⟩
  | givenUp => exact .inr ⟨.givenUp, rfl⟩

theorem Fault.ended_ne_passed (fault : Fault) : fault.ended ≠ .passed := by
  cases fault <;> exact nofun

theorem Fault.ended_inj {fault fault' : Fault} (h : fault.ended = fault'.ended) : fault = fault' := by
  cases fault <;> cases fault' <;> cases h <;> rfl

/-- From a state on, the hooks of some filters ran up to another state: all of them, or those up to
one that did not succeed. -/
inductive Ran (hook : Filter → World → Exchange → HookResult) (event : String → Hook) :
    List Filter → World → Exchange → List Filter → Option (Filter × Fault) → World → Exchange → Prop
  | through (w : World) (x : Exchange) : Ran hook event [] w x [] none w x
  | next {f : Filter} {fs ran : List Filter} {stop : Option (Filter × Fault)}
      {w w₁ w₂ : World} {x x₁ x₂ : Exchange} :
      runHook hook event f w x = (.passed, w₁, x₁) →
      Ran hook event fs w₁ x₁ ran stop w₂ x₂ → Ran hook event (f :: fs) w x (f :: ran) stop w₂ x₂
  | stopped {f : Filter} {fs : List Filter} {fault : Fault} {w w₁ : World} {x x₁ : Exchange} :
      runHook hook event f w x = (fault.ended, w₁, x₁) →
      Ran hook event (f :: fs) w x [f] (some (f, fault)) w₁ x₁

variable {hook : Filter → World → Exchange → HookResult} {event : String → Hook}
  {fs gs ran : List Filter} {stop : Option (Filter × Fault)} {w w₁ w₂ : World} {x x₁ x₂ : Exchange}

/-- A hook in a chain does what it does by itself, and what is noted is that it ran. -/
theorem exists_of_runHook {f : Filter} {ended : HookEnd}
    (h : runHook hook event f w x = (ended, w₁, x₁)) :
    ∃ v, hook f (w.note (event f.name)) x = (ended, v, x₁) ∧
      w₁ = { v with hooks := w.hooks ++ [event f.name] } := by
  rw [runHook] at h
  cases h
  exact ⟨_, rfl, rfl⟩

/-- What a run of hooks reports: an error carries the name of the filter that it is from. -/
def reported (wrap : String → Error → Error) : Option (Filter × Fault) → HookEnd
  | none => .passed
  | some (f, .error e) => .failed (wrap f.name e)
  | some (_, .panicked) => .panicked
  | some (_, .givenUp) => .givenUp

/-- From every state on, the hooks run in some way. -/
theorem exists_ran (hook : Filter → World → Exchange → HookResult) (event : String → Hook)
    (fs : List Filter) (w : World) (x : Exchange) :
    ∃ ran stop w₁ x₁, Ran hook event fs w x ran stop w₁ x₁ := by
  induction fs generalizing w x with
  | nil => exact ⟨_, _, _, _, .through w x⟩
  | cons f fs ih =>
    rcases h : runHook hook event f w x with ⟨ended, w₁, x₁⟩
    rcases hookEnd_cases ended with rfl | ⟨fault, rfl⟩
    · obtain ⟨ran, stop, w₂, x₂, hran⟩ := ih w₁ x₁
      exact ⟨_, _, _, _, .next h hran⟩
    · exact ⟨_, _, _, _, .stopped h⟩

/-- Hooks run in one way only. -/
theorem Ran.unique {ran' : List Filter} {stop' : Option (Filter × Fault)}
    (h : Ran hook event fs w x ran stop w₁ x₁) (h' : Ran hook event fs w x ran' stop' w₂ x₂) :
    ran = ran' ∧ stop = stop' ∧ w₁ = w₂ ∧ x₁ = x₂ := by
  induction h generalizing ran' stop' w₂ x₂ with
  | through => cases h'; exact ⟨rfl, rfl, rfl, rfl⟩
  | next hf _ ih =>
    cases h' with
    | next hf' hrest' =>
      cases hf.symm.trans hf'
      obtain ⟨rfl, rfl, rfl, rfl⟩ := ih hrest'
      exact ⟨rfl, rfl, rfl, rfl⟩
    | @stopped _ _ fault' _ _ _ _ hf' =>
      exact absurd (congrArg Prod.fst (hf'.symm.trans hf)) fault'.ended_ne_passed
  | @stopped _ _ fault _ _ _ _ hf =>
    cases h' with
    | next hf' _ => exact absurd (congrArg Prod.fst (hf.symm.trans hf')) fault.ended_ne_passed
    | stopped hf' =>
      have hsame := hf.symm.trans hf'
      obtain rfl := Fault.ended_inj (congrArg Prod.fst hsame)
      cases hsame
      exact ⟨rfl, rfl, rfl, rfl⟩

/-- The way in which the hooks ran is what the gateway makes of them. -/
theorem Ran.runHooks_eq (wrap : String → Error → Error) (h : Ran hook event fs w x ran stop w₁ x₁) :
    runHooks hook event wrap fs w x = (reported wrap stop, w₁, x₁) := by
  induction h with
  | through w x => rfl
  | next h _ ih => simpa only [runHooks, h] using ih
  | @stopped _ _ fault _ _ _ _ h =>
    rw [runHooks, h]
    cases fault <;> rfl

/-- A run that goes through has run all hooks. -/
theorem Ran.eq_of_through (h : Ran hook event fs w x ran none w₁ x₁) : ran = fs := by
  induction fs generalizing w x ran with
  | nil =>
    cases h
    rfl
  | cons f fs ih =>
    cases h with
    | next _ hrest => rw [ih hrest]

/-- The hook that does not succeed is the last to run. -/
theorem Ran.getLast?_eq {f : Filter} {fault : Fault}
    (h : Ran hook event fs w x ran (some (f, fault)) w₁ x₁) : ran.getLast? = some f := by
  generalize hstop : some (f, fault) = stop at h
  induction h with
  | through => cases hstop
  | next _ _ ih => rw [List.getLast?_cons, ih hstop, Option.getD_some]
  | stopped => cases hstop; rfl

/-- A run that a hook stops ends as that hook of the chain does. -/
theorem Ran.exists_stopped {f : Filter} {fault : Fault}
    (h : Ran hook event fs w x ran (some (f, fault)) w₁ x₁) :
    f ∈ fs ∧ ∃ v y v₁, hook f v y = (fault.ended, v₁, x₁) := by
  induction fs generalizing w x ran with
  | nil => cases h
  | cons g fs ih =>
    cases h with
    | next _ hrest =>
      obtain ⟨hmem, hstopped⟩ := ih hrest
      exact ⟨List.mem_cons_of_mem _ hmem, hstopped⟩
    | stopped hf =>
      obtain ⟨v, hhook, -⟩ := exists_of_runHook hf
      exact ⟨List.mem_cons_self, _, _, v, hhook⟩

theorem ran_of_runHooks {wrap : String → Error → Error}
    (h : runHooks hook event wrap fs w x = (.passed, w₁, x₁)) :
    Ran hook event fs w x fs none w₁ x₁ := by
  obtain ⟨ran, stop, w₂, x₂, hran⟩ := exists_ran hook event fs w x
  have hends := h.symm.trans (hran.runHooks_eq wrap)
  match stop with
  | none =>
    cases hends
    exact hran.eq_of_through ▸ hran
  | some (f, .error e) | some (f, .panicked) | some (f, .givenUp) => cases hends

/-- The hooks that run are the first of the chain. -/
theorem Ran.isPrefix (h : Ran hook event fs w x ran stop w₁ x₁) : ran <+: fs := by
  induction h with
  | through => exact List.prefix_refl _
  | next _ _ ih => exact (List.prefix_cons_inj _).mpr ih
  | stopped => exact ⟨_, rfl⟩

/-- What is noted of a run are the hooks that ran, in order. -/
theorem Ran.hooks (h : Ran hook event fs w x ran stop w₁ x₁) :
    w₁.hooks = w.hooks ++ ran.map (event ·.name) := by
  have hnoted {f w ended w₁} {x x₁ : Exchange} (h : runHook hook event f w x = (ended, w₁, x₁)) :
      w₁.hooks = w.hooks ++ [event f.name] := by
    obtain ⟨v, -, rfl⟩ := exists_of_runHook h
    rfl
  induction h with
  | through => exact (List.append_nil _).symm
  | next h _ ih => rw [ih, hnoted h, List.append_assoc]; rfl
  | stopped h => exact hnoted h

/-- What every hook of a chain keeps of an exchange, a run of them keeps. -/
theorem Ran.preserves (h : Ran hook event fs w x ran stop w₁ x₁) (P : Exchange → Prop)
    (hhook : ∀ f ∈ fs, ∀ w x, P x → P (hook f w x).2.2) (hx : P x) : P x₁ := by
  have hrun {f w x ended w₁ x₁} (hf : P x → P (hook f (w.note (event f.name)) x).2.2)
      (h : runHook hook event f w x = (ended, w₁, x₁)) (hx : P x) : P x₁ := by
    obtain ⟨v, hhook, -⟩ := exists_of_runHook h
    rw [hhook] at hf
    exact hf hx
  induction h with
  | through => exact hx
  | next h _ ih =>
    exact ih (fun f hf => hhook f (List.mem_cons_of_mem _ hf))
      (hrun (hhook _ List.mem_cons_self _ _) h hx)
  | stopped h => exact hrun (hhook _ List.mem_cons_self _ _) h hx

/-- A run that goes through two chains goes through the first and then through the second. -/
theorem Ran.append (h : Ran hook event (fs ++ gs) w x ran none w₂ x₂) :
    ∃ w₁ x₁, Ran hook event fs w x fs none w₁ x₁ ∧
      ∃ ran', Ran hook event gs w₁ x₁ ran' none w₂ x₂ := by
  induction fs generalizing w x ran with
  | nil => exact ⟨w, x, .through w x, ran, h⟩
  | cons f fs ih =>
    cases h with
    | next hf hrest =>
      obtain ⟨w₁, x₁, hfs, hgs⟩ := ih hrest
      exact ⟨w₁, x₁, .next hf hfs, hgs⟩

end Gatehouse.Filter
