import Gatehouse.Regex.Search
import Gatehouse.Proofs.Regex.Expr

/-!
# What a search finds

A search goes through a text once, with many attempts under way at a time. It drops attempts: those
behind one that is done, and those with the same node as a preferred one. None of this loses a
match: a search finds one exactly when the expression describes some part of the text
(`isMatch_iff`).
-/

namespace Gatehouse.Regex

open Unicode (CharSet)

variable {node : Node} {pre cs : List Char} {c : Char} {here : Place} {place : Nat}

/-! ## Matches at the front -/

/-- The node runs through a front part of what is left of a text. -/
def Node.Leads (node : Node) (pre cs : List Char) : Prop :=
  ∃ text post, cs = text ++ post ∧ node.Runs pre text post

theorem Node.leads_nil_iff : node.Leads pre [] ↔ Step.Accepts (node.steps ⟨pre.getLast?, none⟩) := by
  constructor
  · rintro ⟨text, post, heq, h⟩
    obtain ⟨rfl, rfl⟩ := List.nil_eq_append_iff.mp heq
    exact h
  · exact fun h => ⟨[], [], rfl, h⟩

theorem Node.leads_cons_iff : node.Leads pre (c :: cs) ↔
    Step.Accepts (node.steps ⟨pre.getLast?, some c⟩) ∨
      ∃ set rest, Step.Consumes (node.steps ⟨pre.getLast?, some c⟩) set rest ∧
        set.contains c = true ∧ rest.Leads (pre ++ [c]) cs := by
  constructor
  · rintro ⟨text, post, heq, h⟩
    rcases List.cons_eq_append_iff.mp heq with ⟨rfl, rfl⟩ | ⟨text, rfl, rfl⟩
    · exact .inl h
    · obtain ⟨set, rest, hconsumes, hc, hrest⟩ := h
      exact .inr ⟨set, rest, hconsumes, hc, text, post, rfl, hrest⟩
  · rintro (h | ⟨set, rest, hconsumes, hc, text, post, rfl, hrest⟩)
    · exact ⟨[], c :: cs, rfl, h⟩
    · exact ⟨c :: text, post, rfl, set, rest, hconsumes, hc, hrest⟩

/-- The node runs through some part of what is left of a text. -/
def Node.Occurs (node : Node) (pre cs : List Char) : Prop :=
  ∃ skipped rest, cs = skipped ++ rest ∧ node.Leads (pre ++ skipped) rest

theorem Node.occurs_nil_iff : node.Occurs pre [] ↔ node.Leads pre [] := by
  constructor
  · rintro ⟨skipped, rest, heq, h⟩
    obtain ⟨rfl, rfl⟩ := List.nil_eq_append_iff.mp heq
    rwa [List.append_nil] at h
  · intro h
    refine ⟨[], [], rfl, ?_⟩
    rwa [List.append_nil]

theorem Node.occurs_cons_iff :
    node.Occurs pre (c :: cs) ↔ node.Leads pre (c :: cs) ∨ node.Occurs (pre ++ [c]) cs := by
  constructor
  · rintro ⟨skipped, rest, heq, h⟩
    rcases List.cons_eq_append_iff.mp heq with ⟨rfl, rfl⟩ | ⟨skipped, rfl, rfl⟩
    · rw [List.append_nil] at h
      exact .inl h
    · refine .inr ⟨skipped, rest, rfl, ?_⟩
      rwa [List.append_assoc, List.singleton_append]
  · rintro (h | ⟨skipped, rest, rfl, h⟩)
    · refine ⟨[], c :: cs, rfl, ?_⟩
      rwa [List.append_nil]
    · refine ⟨c :: skipped, rest, rfl, ?_⟩
      rwa [List.append_assoc, List.singleton_append] at h

/-! ## Attempts at one place -/

/-- An attempt that is done is found among the steps. -/
theorem isSome_advance_iff {steps : List (Step × Slots)} :
    (advance here place steps).2.isSome = true ↔ Step.Accepts (steps.map Prod.fst) := by
  induction steps with
  | nil => simp [advance]
  | cons step steps ih =>
    obtain ⟨step, slots⟩ := step
    cases step with
    | accept numbers => simp [advance]
    | consume set rest numbers => simpa [advance] using ih

/-- While no attempt is done, every attempt that waits for a character is kept. -/
theorem exists_waiting_iff {steps : List (Step × Slots)} {p : CharSet → Node → Prop}
    (h : ¬ Step.Accepts (steps.map Prod.fst)) :
    (∃ w ∈ (advance here place steps).1, p w.set w.attempt.node) ↔
      ∃ set rest, Step.Consumes (steps.map Prod.fst) set rest ∧ p set rest := by
  induction steps with
  | nil => simp [advance]
  | cons step steps ih =>
    obtain ⟨step, slots⟩ := step
    cases step with
    | accept numbers => exact absurd Step.accepts_accept h
    | consume set rest numbers =>
      rw [List.map_cons, Step.accepts_consume] at h
      simp only [advance, List.mem_cons, List.map_cons, Step.consumes_consume, ih h, or_and_right,
        exists_or, exists_eq_left]
      refine or_congr_left ⟨fun hp => ⟨set, rest, ⟨rfl, rfl⟩, hp⟩, ?_⟩
      rintro ⟨_, _, ⟨rfl, rfl⟩, hp⟩
      exact hp

/-- The steps of some attempts, with what each has noted. -/
theorem accepts_steps_iff {attempts : List Attempt} :
    Step.Accepts ((attempts.flatMap fun a => (a.node.steps here).map (·, a.slots)).map Prod.fst) ↔
      ∃ a ∈ attempts, Step.Accepts (a.node.steps here) := by
  induction attempts with
  | nil => simp
  | cons a attempts ih => simp [ih, Function.comp_def]

theorem consumes_steps_iff {attempts : List Attempt} {set : CharSet} {rest : Node} :
    Step.Consumes ((attempts.flatMap fun a => (a.node.steps here).map (·, a.slots)).map Prod.fst)
        set rest ↔ ∃ a ∈ attempts, Step.Consumes (a.node.steps here) set rest := by
  induction attempts with
  | nil => simp
  | cons a attempts ih => simp [ih, Function.comp_def]

/-- Of the attempts with one node one is kept. -/
theorem exists_distinct_iff {attempts : List Attempt} {p : Node → Prop} :
    (∃ a ∈ distinct attempts, p a.node) ↔ ∃ a ∈ attempts, p a.node := by
  induction attempts with
  | nil => simp [distinct]
  | cons a attempts ih =>
    simp only [distinct, List.mem_cons, exists_eq_or_imp, List.mem_filter, bne_iff_ne, ← ih]
    by_cases ha : p a.node
    · simp [ha]
    · simp only [ha, false_or]
      refine exists_congr fun b => ⟨fun h => ⟨h.1.1, h.2⟩, fun h => ⟨⟨h.1, ?_⟩, h.2⟩⟩
      rintro heq
      exact ha (heq ▸ h.2)

/-! ## The search -/

section

variable {attempts : List Attempt} {found : Option Slots} {before : Option Char}

/-- The ways to go on from some attempts. -/
def stepsOf (here : Place) (attempts : List Attempt) : List (Step × Slots) :=
  attempts.flatMap fun a => (a.node.steps here).map (·, a.slots)

/-- The attempts under way behind the next character. -/
def goingOn (here : Place) (place : Nat) (c : Char) (steps : List (Step × Slots)) : List Attempt :=
  distinct (((advance here place steps).1.filter fun w => w.set.contains c).map (·.attempt))

/-- The attempts at a place, with one that begins there. -/
def begun (node : Node) (place : Nat) (found : Option Slots) (attempts : List Attempt) :
    List Attempt :=
  if found.isNone then attempts ++ [⟨node, [(0, place)]⟩] else attempts

theorem searchFrom_nil : searchFrom node before place attempts found [] =
    ((advance ⟨before, none⟩ place (stepsOf ⟨before, none⟩ (begun node place found attempts))).2 <|>
      found) := rfl

theorem searchFrom_cons : searchFrom node before place attempts found (c :: cs) =
    let steps := stepsOf ⟨before, some c⟩ (begun node place found attempts)
    let found := (advance ⟨before, some c⟩ place steps).2 <|> found
    if found.isSome && (goingOn ⟨before, some c⟩ place c steps).isEmpty then found
    else searchFrom node (some c) (place + 1) (goingOn ⟨before, some c⟩ place c steps) found cs := rfl

/-- A match found is not lost again. -/
theorem isSome_searchFrom_of_found (h : found.isSome = true) :
    (searchFrom node before place attempts found cs).isSome = true := by
  induction cs generalizing before place attempts found with
  | nil => simp [searchFrom_nil, h]
  | cons c cs ih =>
    rw [searchFrom_cons]
    dsimp only
    split
    · simp [h]
    · exact ih (by simp [h])

theorem orElse_none (done : Option Slots) : (done <|> none) = done := by cases done <;> rfl

/-- At one place an attempt is done, or the search goes on behind the next character. -/
theorem isSome_searchFrom_cons_iff {steps : List (Step × Slots)}
    (hsteps : stepsOf ⟨before, some c⟩ (begun node place none attempts) = steps) :
    (searchFrom node before place attempts none (c :: cs)).isSome = true ↔
      Step.Accepts (steps.map Prod.fst) ∨ ¬ Step.Accepts (steps.map Prod.fst) ∧
        (searchFrom node (some c) (place + 1) (goingOn ⟨before, some c⟩ place c steps) none
          cs).isSome = true := by
  have hdone : (advance ⟨before, some c⟩ place steps).2.isSome = true ↔
      Step.Accepts (steps.map Prod.fst) := isSome_advance_iff
  rw [searchFrom_cons]
  simp only [hsteps, orElse_none]
  by_cases haccepts : Step.Accepts (steps.map Prod.fst)
  · simp only [haccepts, true_or, iff_true]
    split
    · exact hdone.mpr haccepts
    · exact isSome_searchFrom_of_found (hdone.mpr haccepts)
  · have hnone : (advance ⟨before, some c⟩ place steps).2 = none := by
      simpa using mt hdone.mp haccepts
    simp [haccepts, hnone]

theorem mem_begun {a : Attempt} :
    a ∈ begun node place none attempts ↔ a ∈ attempts ∨ a = ⟨node, [(0, place)]⟩ := by
  simp [begun]

theorem exists_begun_leads_iff (place : Nat) :
    (∃ a ∈ begun node place none attempts, a.node.Leads pre cs) ↔
      (∃ a ∈ attempts, a.node.Leads pre cs) ∨ node.Leads pre cs := by
  simp only [mem_begun, or_and_right, exists_or, exists_eq_left]

theorem exists_leads_cons_iff : (∃ a ∈ attempts, a.node.Leads pre (c :: cs)) ↔
    Step.Accepts ((stepsOf ⟨pre.getLast?, some c⟩ attempts).map Prod.fst) ∨
      ∃ set rest, Step.Consumes ((stepsOf ⟨pre.getLast?, some c⟩ attempts).map Prod.fst) set rest ∧
        set.contains c = true ∧ rest.Leads (pre ++ [c]) cs := by
  simp only [Node.leads_cons_iff, stepsOf, accepts_steps_iff, consumes_steps_iff, and_or_left,
    exists_or]
  refine or_congr_right ⟨?_, ?_⟩
  · rintro ⟨a, ha, set, rest, h, hrest⟩
    exact ⟨set, rest, ⟨a, ha, h⟩, hrest⟩
  · rintro ⟨set, rest, ⟨a, ha, h⟩, hrest⟩
    exact ⟨a, ha, set, rest, h, hrest⟩

/-- What waits for the next character leads on behind it. -/
theorem exists_goingOn_leads_iff {steps : List (Step × Slots)}
    (h : ¬ Step.Accepts (steps.map Prod.fst)) :
    (∃ a ∈ goingOn here place c steps, a.node.Leads (pre ++ [c]) cs) ↔
      ∃ set rest, Step.Consumes (steps.map Prod.fst) set rest ∧
        set.contains c = true ∧ rest.Leads (pre ++ [c]) cs := by
  rw [goingOn, exists_distinct_iff (p := fun node => node.Leads (pre ++ [c]) cs),
    ← exists_waiting_iff (p := fun set rest => set.contains c = true ∧ rest.Leads (pre ++ [c]) cs) h]
  simp only [List.mem_map, List.mem_filter]
  constructor
  · rintro ⟨_, ⟨w, ⟨hw, hc⟩, rfl⟩, hleads⟩
    exact ⟨w, hw, hc, hleads⟩
  · rintro ⟨w, hw, hc, hleads⟩
    exact ⟨w.attempt, ⟨w, ⟨hw, hc⟩, rfl⟩, hleads⟩

/-- A search finds a match if an attempt under way leads to one, or one begins later. -/
theorem isSome_searchFrom_iff : (searchFrom node pre.getLast? place attempts none cs).isSome = true ↔
    (∃ a ∈ attempts, a.node.Leads pre cs) ∨ node.Occurs pre cs := by
  induction cs generalizing pre place attempts with
  | nil =>
    rw [searchFrom_nil, orElse_none, isSome_advance_iff, Node.occurs_nil_iff,
      ← exists_begun_leads_iff place]
    simp only [Node.leads_nil_iff, stepsOf, accepts_steps_iff]
  | cons c cs ih =>
    have hlast : some c = (pre ++ [c]).getLast? := by simp
    rw [isSome_searchFrom_cons_iff rfl, Node.occurs_cons_iff, ← or_assoc,
      ← exists_begun_leads_iff place, exists_leads_cons_iff, hlast, ih, ← hlast]
    by_cases haccepts : Step.Accepts ((stepsOf ⟨pre.getLast?, some c⟩
        (begun node place none attempts)).map Prod.fst)
    · simp only [haccepts, true_or]
    · rw [exists_goingOn_leads_iff haccepts]
      simp only [haccepts, not_false_eq_true, false_or, true_and]

end

/-- A search finds a match where the expression matches some part of the text. -/
theorem isMatch_iff {re : Regex} {text : List Char} : re.isMatch text = true ↔
    ∃ pre part post, text = pre ++ (part ++ post) ∧ re.node.Runs pre part post := by
  have hsearch : (searchFrom re.node ([] : List Char).getLast? 0 [] none text).isSome = true ↔
      (∃ a ∈ ([] : List Attempt), a.node.Leads [] text) ∨ re.node.Occurs [] text :=
    isSome_searchFrom_iff
  refine hsearch.trans ⟨?_, ?_⟩
  · rintro (⟨a, ha, -⟩ | ⟨pre, _, rfl, part, post, rfl, h⟩)
    · cases ha
    · exact ⟨pre, part, post, rfl, h⟩
  · rintro ⟨pre, part, post, rfl, h⟩
    exact .inr ⟨pre, part ++ post, rfl, part, post, rfl, h⟩

end Gatehouse.Regex
