import Mathlib.Data.List.Basic
import Gatehouse.Regex.Node

/-!
# What a node matches

Matching goes through a text one character at a time: `Node.Runs` follows the steps of a node
through a text that stands between two others. What runs through a sequence, an alternative or a
repetition is said in terms of its parts: a sequence runs through one text behind the other
(`runs_seq_iff`), and a repetition through any number of them (`runs_again_iff`).
-/

namespace Gatehouse.Regex

open Unicode (CharSet)

/-! ## Texts in their place -/

/-- A property of a text that stands between two others. -/
abbrev Occurrence := (pre text post : List Char) → Prop

/-- The place between two texts. -/
def Place.between (pre post : List Char) : Place := ⟨pre.getLast?, post.head?⟩

/-- The text falls into two, one behind the other. -/
def Then (P Q : Occurrence) : Occurrence := fun pre text post =>
  ∃ u v, text = u ++ v ∧ P pre u (v ++ post) ∧ Q (pre ++ u) v post

/-- The text falls into so many, one behind the other. -/
def Times (P : Occurrence) : Nat → Occurrence
  | 0 => fun _ text _ => text = []
  | n + 1 => Then P (Times P n)

variable {P Q : Occurrence} {pre text post : List Char} {c : Char}

theorem then_nil_iff : Then P Q pre [] post ↔ P pre [] post ∧ Q pre [] post := by
  constructor
  · rintro ⟨u, v, heq, hP, hQ⟩
    obtain ⟨rfl, rfl⟩ := List.nil_eq_append_iff.mp heq
    rw [List.append_nil] at hQ
    exact ⟨hP, hQ⟩
  · rintro ⟨hP, hQ⟩
    refine ⟨[], [], rfl, hP, ?_⟩
    rwa [List.append_nil]

/-- The first text is empty or takes the first character. -/
theorem then_cons_iff : Then P Q pre (c :: text) post ↔
    (P pre [] (c :: text ++ post) ∧ Q pre (c :: text) post) ∨
      Then (fun _ u rest => P pre (c :: u) rest) Q (pre ++ [c]) text post := by
  constructor
  · rintro ⟨u, v, heq, hP, hQ⟩
    rcases List.cons_eq_append_iff.mp heq with ⟨rfl, rfl⟩ | ⟨u, rfl, rfl⟩
    · rw [List.append_nil] at hQ
      exact .inl ⟨hP, hQ⟩
    · refine .inr ⟨u, v, rfl, hP, ?_⟩
      rwa [List.append_assoc, List.singleton_append]
  · rintro (⟨hP, hQ⟩ | ⟨u, v, rfl, hP, hQ⟩)
    · refine ⟨[], c :: text, rfl, hP, ?_⟩
      rwa [List.append_nil]
    · refine ⟨c :: u, v, rfl, hP, ?_⟩
      rwa [List.append_assoc, List.singleton_append] at hQ

/-! ## Steps -/

namespace Step

variable {steps steps' behind : List Step} {a b rest : Node} {set set' : CharSet} {slots : List Nat}

/-- A way to be done is among some ways to go on. -/
def Accepts (steps : List Step) : Prop := ∃ slots, accept slots ∈ steps

/-- A way to consume a character of a set is among some ways to go on. -/
def Consumes (steps : List Step) (set : CharSet) (rest : Node) : Prop :=
  ∃ slots, consume set rest slots ∈ steps

@[simp] theorem not_accepts_nil : ¬ Accepts [] := by simp [Accepts]

@[simp] theorem accepts_accept : Accepts (accept slots :: steps) := ⟨slots, List.mem_cons_self⟩

@[simp] theorem accepts_consume :
    Accepts (consume set rest slots :: steps) ↔ Accepts steps := by
  simp [Accepts]

@[simp] theorem accepts_append : Accepts (steps ++ steps') ↔ Accepts steps ∨ Accepts steps' := by
  simp [Accepts, exists_or]

@[simp] theorem not_consumes_nil : ¬ Consumes [] set rest := by simp [Consumes]

@[simp] theorem consumes_accept :
    Consumes (accept slots :: steps) set rest ↔ Consumes steps set rest := by
  simp [Consumes]

@[simp] theorem consumes_consume : Consumes (consume set' a slots :: steps) set rest ↔
    (set = set' ∧ rest = a) ∨ Consumes steps set rest := by
  simp [Consumes, exists_or]

@[simp] theorem consumes_append :
    Consumes (steps ++ steps') set rest ↔ Consumes steps set rest ∨ Consumes steps' set rest := by
  simp [Consumes, exists_or]

@[simp] theorem accepts_map_withSlots :
    Accepts (steps.map (withSlots slots)) ↔ Accepts steps := by
  induction steps with
  | nil => simp
  | cons step steps ih => cases step <;> simp [withSlots, ih]

@[simp] theorem consumes_map_withSlots :
    Consumes (steps.map (withSlots slots)) set rest ↔ Consumes steps set rest := by
  induction steps with
  | nil => simp
  | cons step steps ih => cases step <;> simp [withSlots, ih]

theorem accepts_andThen : Accepts (andThen b behind steps) ↔ Accepts steps ∧ Accepts behind := by
  induction steps generalizing behind with
  | nil => simp [andThen]
  | cons step steps ih => cases step <;> simp [andThen, ih]

/-- A character is consumed within the first node, or behind it where it can be done. -/
theorem consumes_andThen : Consumes (andThen b behind steps) set rest ↔
    (∃ a, Consumes steps set a ∧ rest = a.followedBy b) ∨
      (Accepts steps ∧ Consumes behind set rest) := by
  induction steps generalizing behind with
  | nil => simp [andThen]
  | cons step steps ih =>
    cases step with
    | consume set' a slots =>
      simp only [andThen, consumes_consume, accepts_consume, ih, or_and_right, exists_or]
      rw [or_assoc]
      simp
    | accept slots =>
      simp only [andThen, consumes_append, consumes_map_withSlots, consumes_accept, ih,
        not_consumes_nil, accepts_accept, and_false, or_false, true_and]
      exact or_comm

end Step

/-! ## Runs -/

namespace Node

open Step (Accepts Consumes)

/-- The steps of a node lead through a text. -/
def Runs : Node → Occurrence
  | node, pre, [], post => Accepts (node.steps (.between pre post))
  | node, pre, c :: cs, post => ∃ set rest, Consumes (node.steps ⟨pre.getLast?, some c⟩) set rest ∧
      set.contains c = true ∧ rest.Runs (pre ++ [c]) cs post

variable {a b node : Node} {set : CharSet} {greedy : Bool}

theorem runs_nil_iff : node.Runs pre [] post ↔ Accepts (node.steps (.between pre post)) := Iff.rfl

theorem runs_cons_iff : node.Runs pre (c :: text) post ↔
    ∃ set rest, Consumes (node.steps ⟨pre.getLast?, some c⟩) set rest ∧
      set.contains c = true ∧ rest.Runs (pre ++ [c]) text post := Iff.rfl

/-! ### The steps of one node -/

section

variable {here : Place} {position slot : Nat} {l : Look}

theorem steps_empty : Node.empty.steps here = [.accept []] := rfl

theorem steps_letter : (Node.letter position set).steps here = [.consume set .empty []] := rfl

theorem steps_look :
    (Node.look l).steps here = if l.holds here then [.accept []] else [] := rfl

theorem steps_mark : (Node.mark slot).steps here = [.accept [slot]] := rfl

theorem steps_alt : (Node.alt a b).steps here = a.steps here ++ b.steps here := rfl

theorem steps_seq : (Node.seq a b).steps here = Step.andThen b (b.steps here) (a.steps here) := rfl

theorem steps_plus : (Node.plus greedy a).steps here = (a.steps here).map fun
    | .consume set rest slots => .consume set (rest.followedBy (.again greedy a)) slots
    | .accept slots => .accept slots := rfl

theorem steps_again : (Node.again greedy a).steps here =
    let more := (a.steps here).filterMap fun
      | .consume set rest slots => some (.consume set (rest.followedBy (.again greedy a)) slots)
      | .accept _ => none
    if greedy then more ++ [.accept []] else .accept [] :: more := rfl

end

/-! ### What each node runs through -/

@[simp] theorem runs_empty_iff : Node.empty.Runs pre text post ↔ text = [] := by
  cases text <;> simp [runs_nil_iff, runs_cons_iff, steps_empty]

theorem runs_letter_iff {position : Nat} : (Node.letter position set).Runs pre text post ↔
    ∃ c, text = [c] ∧ set.contains c = true := by
  cases text with
  | nil => simp [runs_nil_iff, steps_letter]
  | cons c text =>
    simp only [runs_cons_iff, steps_letter, Step.consumes_consume, Step.not_consumes_nil, or_false]
    constructor
    · rintro ⟨_, _, ⟨rfl, rfl⟩, hc, hrest⟩
      obtain rfl : text = [] := runs_empty_iff.mp hrest
      exact ⟨c, rfl, hc⟩
    · rintro ⟨_, heq, hc⟩
      obtain ⟨rfl, rfl⟩ := List.cons_eq_cons.mp heq
      exact ⟨set, .empty, ⟨rfl, rfl⟩, hc, runs_empty_iff.mpr rfl⟩

theorem runs_look_iff {l : Look} : (Node.look l).Runs pre text post ↔
    text = [] ∧ l.holds (.between pre post) = true := by
  cases text with
  | nil => by_cases h : l.holds (.between pre post) <;> simp [runs_nil_iff, steps_look, h]
  | cons c text =>
    by_cases h : l.holds ⟨pre.getLast?, some c⟩ <;> simp [runs_cons_iff, steps_look, h]

theorem runs_mark_iff {slot : Nat} : (Node.mark slot).Runs pre text post ↔ text = [] := by
  cases text <;> simp [runs_nil_iff, runs_cons_iff, steps_mark]

theorem runs_alt_iff : (Node.alt a b).Runs pre text post ↔
    a.Runs pre text post ∨ b.Runs pre text post := by
  cases text with
  | nil => simp [runs_nil_iff, steps_alt]
  | cons c text => simp [runs_cons_iff, steps_alt, or_and_right, exists_or]

theorem runs_seq_iff : (Node.seq a b).Runs pre text post ↔ Then a.Runs b.Runs pre text post := by
  induction text generalizing a pre with
  | nil => rw [then_nil_iff, runs_nil_iff, steps_seq, Step.accepts_andThen, runs_nil_iff, runs_nil_iff]
  | cons c text ih =>
    have hfollowed (r : Node) : (r.followedBy b).Runs (pre ++ [c]) text post ↔
        Then r.Runs b.Runs (pre ++ [c]) text post := by
      cases r with
      | empty => simp [followedBy, Then]
      | _ => exact ih
    rw [then_cons_iff, runs_cons_iff, steps_seq]
    constructor
    · rintro ⟨set, rest, hconsumes, hc, hrest⟩
      rcases Step.consumes_andThen.mp hconsumes with ⟨r, hr, rfl⟩ | ⟨haccepts, hb⟩
      · obtain ⟨u, v, rfl, hu, hv⟩ := (hfollowed r).mp hrest
        exact .inr ⟨u, v, rfl, ⟨set, r, hr, hc, hu⟩, hv⟩
      · exact .inl ⟨haccepts, set, rest, hb, hc, hrest⟩
    · rintro (⟨haccepts, set, rest, hb, hc, hrest⟩ | ⟨u, v, rfl, ⟨set, r, hr, hc, hu⟩, hv⟩)
      · exact ⟨set, rest, Step.consumes_andThen.mpr (.inr ⟨haccepts, hb⟩), hc, hrest⟩
      · exact ⟨set, _, Step.consumes_andThen.mpr (.inl ⟨r, hr, rfl⟩), hc,
          (hfollowed r).mpr ⟨u, v, rfl, hu, hv⟩⟩

theorem runs_followedBy_iff :
    (a.followedBy b).Runs pre text post ↔ Then a.Runs b.Runs pre text post := by
  cases a with
  | empty => simp [followedBy, Then]
  | _ => exact runs_seq_iff

theorem runs_optional_iff :
    (optional greedy a).Runs pre text post ↔ text = [] ∨ a.Runs pre text post := by
  cases greedy
  · simp [optional, runs_alt_iff]
  · simp [optional, runs_alt_iff, or_comm]

/-! ### Repetitions -/

variable {here : Place} {rest : Node}

theorem accepts_again : Accepts ((Node.again greedy a).steps here) := by
  cases greedy <;> simp [steps_again]

/-- What repeats consumes a character within one of its rounds. -/
theorem consumes_again : Consumes ((Node.again greedy a).steps here) set rest ↔
    ∃ r, Consumes (a.steps here) set r ∧ rest = r.followedBy (.again greedy a) := by
  rw [steps_again]
  generalize a.steps here = ways
  cases greedy
  all_goals
    induction ways with
    | nil => simp
    | cons way ways ih => cases way <;> simp_all [or_and_right, exists_or]

theorem accepts_plus : Accepts ((Node.plus greedy a).steps here) ↔ Accepts (a.steps here) := by
  rw [steps_plus]
  induction a.steps here with
  | nil => simp
  | cons way ways ih => cases way <;> simp [ih]

theorem consumes_plus : Consumes ((Node.plus greedy a).steps here) set rest ↔
    ∃ r, Consumes (a.steps here) set r ∧ rest = r.followedBy (.again greedy a) := by
  rw [steps_plus]
  induction a.steps here with
  | nil => simp
  | cons way ways ih => cases way <;> simp_all [or_and_right, exists_or]

theorem runs_again_cons_iff : (Node.again greedy a).Runs pre (c :: text) post ↔
    Then (fun _ u rest => a.Runs pre (c :: u) rest) (Node.again greedy a).Runs (pre ++ [c]) text post := by
  rw [runs_cons_iff]
  constructor
  · rintro ⟨set, _, hconsumes, hc, hrest⟩
    obtain ⟨r, hr, rfl⟩ := consumes_again.mp hconsumes
    obtain ⟨u, v, rfl, hu, hv⟩ := runs_followedBy_iff.mp hrest
    exact ⟨u, v, rfl, ⟨set, r, hr, hc, hu⟩, hv⟩
  · rintro ⟨u, v, rfl, ⟨set, r, hr, hc, hu⟩, hv⟩
    exact ⟨set, _, consumes_again.mpr ⟨r, hr, rfl⟩, hc, runs_followedBy_iff.mpr ⟨u, v, rfl, hu, hv⟩⟩

theorem exists_times_of_runs_again : ∀ {pre text : List Char},
    (Node.again greedy a).Runs pre text post → ∃ n, Times a.Runs n pre text post
  | _, [], _ => ⟨0, rfl⟩
  | pre, c :: text, h => by
    obtain ⟨u, v, heq, hu, hv⟩ := runs_again_cons_iff.mp h
    obtain ⟨n, hn⟩ := exists_times_of_runs_again hv
    refine ⟨n + 1, c :: u, v, congrArg (c :: ·) heq, hu, ?_⟩
    rwa [List.append_assoc, List.singleton_append] at hn
termination_by _ text => text.length
decreasing_by
  subst heq
  simp only [List.length_cons, List.length_append]
  omega

theorem runs_again_of_times {n : Nat} (h : Times a.Runs n pre text post) :
    (Node.again greedy a).Runs pre text post := by
  induction n generalizing pre text with
  | zero =>
    obtain rfl : text = [] := h
    exact accepts_again
  | succ n ih =>
    obtain ⟨u, v, rfl, hu, hv⟩ := h
    cases u with
    -- a round that takes nothing can be left out
    | nil =>
      rw [List.append_nil] at hv
      exact ih hv
    | cons c u =>
      refine runs_again_cons_iff.mpr ⟨u, v, rfl, hu, ?_⟩
      rw [List.append_assoc, List.singleton_append]
      exact ih hv

theorem runs_again_iff :
    (Node.again greedy a).Runs pre text post ↔ ∃ n, Times a.Runs n pre text post :=
  ⟨exists_times_of_runs_again, fun ⟨_, h⟩ => runs_again_of_times h⟩

theorem runs_plus_iff :
    (Node.plus greedy a).Runs pre text post ↔ ∃ n, Times a.Runs (n + 1) pre text post := by
  have hthen : (∃ n, Times a.Runs (n + 1) pre text post) ↔
      Then a.Runs (Node.again greedy a).Runs pre text post := by
    constructor
    · rintro ⟨n, u, v, rfl, hu, hv⟩
      exact ⟨u, v, rfl, hu, runs_again_of_times hv⟩
    · rintro ⟨u, v, rfl, hu, hv⟩
      obtain ⟨n, hn⟩ := exists_times_of_runs_again hv
      exact ⟨n, u, v, rfl, hu, hn⟩
  rw [hthen]
  cases text with
  | nil =>
    rw [then_nil_iff, runs_nil_iff, accepts_plus, runs_nil_iff]
    exact (and_iff_left accepts_again).symm
  | cons c text =>
    have hagain : (Node.plus greedy a).Runs pre (c :: text) post ↔
        (Node.again greedy a).Runs pre (c :: text) post := by
      simp only [runs_cons_iff, consumes_plus, consumes_again]
    rw [hagain, then_cons_iff, ← runs_again_cons_iff]
    exact (or_iff_right_of_imp And.right).symm

end Node

end Gatehouse.Regex
