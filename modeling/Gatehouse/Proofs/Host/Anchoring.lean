import Gatehouse.Host.Pattern
import Gatehouse.Proofs.Except
import Gatehouse.Proofs.Regex.Anchor
import Gatehouse.Regex.Estimate

/-!
# How host patterns are anchored

The text of a pattern is put between `^` and `$` as it is. Where it says several things, divided by
bars, `^` belongs to the first of them and `$` to the last, and what stands between is anchored at
neither end.
-/

namespace Gatehouse.Host

open Regex

/-- The text of a host that is matched. -/
def hostText (host : Bytes) : List Char := (Utf8.decodeLossy (stripPort host)).toList

/-- What is read of a text as one unit in which case does not count, with the flags at its end. -/
def unit? (cs : List Char) : Option (Flags × GroupState) := do
  let (x, i) ← (groupParts (2 * cs.length + 2) { ignoreCase := true } {}).run { rest := cs }
  if i.rest.isEmpty then some x else none

variable {room : Capacity} {text : String} {p : Pattern} {flags : Flags} {unit : GroupState}

theorem toList_anchored (cs : List Char) :
    (s!"(?i)^{String.ofList cs}$").toList = "(?i)^".toList ++ (cs ++ ['$']) := by
  simp [toString]

theorem ofText_eq_ok : Pattern.ofText room text = .ok p ↔
    Regex.ofText room s!"(?i)^{String.ofList (expression text.toList)}$" = .ok p.regex ∧
      text = p.text := by
  obtain ⟨ptext, regex⟩ := p
  rw [Pattern.ofText]
  cases Regex.ofText room s!"(?i)^{String.ofList (expression text.toList)}$" with
  | error fault => simp [bind, Except.bind]
  | ok re => simp [bind, Except.bind, pure, Except.pure, and_comm]

theorem ordered_unit {cs : List Char} (hunit : unit? cs = some (flags, unit)) : unit.Ordered := by
  obtain ⟨⟨x, i⟩, hrun, hx⟩ := Option.bind_eq_some_iff.mp hunit
  obtain ⟨-, rfl⟩ : i.rest = [] ∧ x = (flags, unit) := by simpa using hx
  exact ordered_groupParts ⟨by simp, by simp⟩ hrun

/-- A part of the text of a host is what a branch of the unit describes, at the ends at which the
branch is anchored. -/
theorem accepts_iff_exists_anchored (hp : Pattern.ofText room text = .ok p)
    (hunit : unit? (expression text.toList) = some (flags, unit)) (hverbose : flags.verbose = false)
    {host : Bytes} : p.accepts host = true ↔ ∃ pre part post,
      hostText host = pre ++ (part ++ post) ∧
        Anchored unit.branches (dollar flags) pre part post := by
  obtain ⟨flags', state, i, hrun, -, hmatch⟩ := exists_branches_of_ofText (ofText_eq_ok.mp hp).1
  obtain ⟨⟨x, i'⟩, halone, hx⟩ := Option.bind_eq_some_iff.mp hunit
  obtain ⟨hrest, rfl⟩ : i'.rest = [] ∧ x = (flags, unit) := by simpa using hx
  have hlength : 2 * ("(?i)^".toList ++ (expression text.toList ++ ['$'])).length + 2 =
      (2 * (expression text.toList).length + 12) + 2 := by
    simp
    omega
  rw [toList_anchored, hlength] at hrun
  have hlt : 2 * (expression text.toList).length + 2 < 2 * (expression text.toList).length + 12 := by
    omega
  obtain ⟨t, hover, hanchored⟩ := run_groupParts_anchored hlt halone hrest hverbose
  rw [hanchored] at hrun
  cases hrun
  refine (hmatch (hostText host)).trans ?_
  simp only [← spans_ended_iff hover]
  constructor
  · rintro ⟨branch, hbranch, pre, part, post, htext, hspans⟩
    exact ⟨pre, part, post, htext, branch, hbranch, hspans⟩
  · rintro ⟨pre, part, post, htext, branch, hbranch, hspans⟩
    exact ⟨branch, hbranch, pre, part, post, htext, hspans⟩

/-- The condition of a dollar sign holds at the end of the text. -/
theorem dollar_holds_end (flags : Flags) (cs : List Char) :
    (dollar flags).holds (.between cs []) = true := by
  rw [dollar]
  split
  · rfl
  · split <;> rfl

theorem textEnd_holds_iff {pre post : List Char} :
    Look.textEnd.holds (.between pre post) = true ↔ post = [] := by
  simp [Look.holds, Place.between]

/-- Whether an expression describes a whole text is the matching of that expression between the
start and the end of the text. -/
theorem spans_whole_iff {e : Expr} (hordered : e.Ordered) (cs : List Char) :
    e.Spans [] cs [] ↔ Regex.isMatch
      { node := (Expr.seq (.look .textStart) (.seq e (.look .textEnd))).toNode } cs = true := by
  rw [isMatch_iff]
  have hruns (pre part post : List Char) :
      (Expr.seq (.look .textStart) (.seq e (.look .textEnd))).toNode.Runs pre part post ↔
        pre = [] ∧ e.Spans pre part post ∧ post = [] := by
    have hwhole : (Expr.seq (.look .textStart) (.seq e (.look .textEnd))).Ordered :=
      ⟨trivial, hordered, trivial⟩
    rw [Expr.runs_toNode_iff hwhole]
    exact look_then_iff.trans (and_congr textStart_holds_iff
      (then_look_iff.trans (and_congr_right' textEnd_holds_iff)))
  simp only [hruns]
  constructor
  · exact fun h => ⟨[], cs, [], by simp, rfl, h, rfl⟩
  · rintro ⟨pre, part, post, rfl, rfl, h, rfl⟩
    simpa using h

/-- What the pattern describes as one unit is accepted as a whole. -/
theorem accepts_of_spans (hp : Pattern.ofText room text = .ok p)
    (hunit : unit? (expression text.toList) = some (flags, unit)) (hverbose : flags.verbose = false)
    {host : Bytes} (hspans : unit.result.expr.Spans [] (hostText host) []) :
    p.accepts host = true := by
  obtain ⟨branch, hbranch, hspans⟩ := spans_result_iff.mp hspans
  obtain ⟨front, back, heq⟩ := List.append_of_mem hbranch
  exact (accepts_iff_exists_anchored hp hunit hverbose).mpr ⟨[], hostText host, [], by simp,
    front, branch, back, heq, hspans, fun _ => rfl, fun _ => dollar_holds_end flags _⟩

/-- A pattern of one branch accepts nothing else where lines do not count. -/
theorem accepts_iff_spans (hp : Pattern.ofText room text = .ok p)
    (hunit : unit? (expression text.toList) = some (flags, unit)) (hverbose : flags.verbose = false)
    (halone : unit.alternatives = []) (hlines : flags.multiLine = false) {host : Bytes} :
    p.accepts host = true ↔ unit.result.expr.Spans [] (hostText host) [] := by
  refine ⟨fun hhost => ?_, accepts_of_spans hp hunit hverbose⟩
  obtain ⟨pre, part, post, htext, hanchored⟩ :=
    (accepts_iff_exists_anchored hp hunit hverbose).mp hhost
  have hbranches : unit.branches = [(concat unit.pieces).expr] := by
    simp [GroupState.branches, halone]
  have hresult : unit.result = concat unit.pieces := by rw [GroupState.result, halone]; rfl
  have hdollar : dollar flags = .textEnd := by simp [dollar, hlines]
  rw [hbranches, hdollar] at hanchored
  obtain ⟨⟨rfl, hspans⟩, hend⟩ := anchored_singleton.mp hanchored
  obtain rfl := textEnd_holds_iff.mp hend
  rw [hresult, htext]
  simpa using hspans

/-- A host is accepted where a part of it is what a branch of the pattern describes; only the first
branch has to start where the host does, and only the last one has to end where the dollar sign
holds. What the pattern describes as one unit is accepted as a whole, and nothing else is where the
pattern has one branch and lines do not count. -/
theorem accepts_iff_anchored (hp : Pattern.ofText room text = .ok p)
    (hunit : unit? (expression text.toList) = some (flags, unit)) (hverbose : flags.verbose = false)
    (host : Bytes) :
    (p.accepts host = true ↔ ∃ pre part post, hostText host = pre ++ (part ++ post) ∧
      Anchored unit.branches (dollar flags) pre part post) ∧
    (unit.result.expr.Spans [] (hostText host) [] → p.accepts host = true) ∧
    (unit.alternatives = [] → flags.multiLine = false → p.accepts host = true →
      unit.result.expr.Spans [] (hostText host) []) :=
  ⟨accepts_iff_exists_anchored hp hunit hverbose, accepts_of_spans hp hunit hverbose,
    fun halone hlines => (accepts_iff_spans hp hunit hverbose halone hlines).mp⟩

/-- What comes of the pattern `1|2`: it accepts `1.evil.net`, and as one unit, in which blanks
count, it does not describe the whole of that host. -/
theorem read_bar :
    (Pattern.ofText .estimated "1|2").map (·.accepts (Bytes.ofString "1.evil.net")) = .ok true ∧
      (unit? (expression "1|2".toList)).map (fun x => (x.1.verbose, Regex.isMatch
        { node := (Expr.seq (.look .textStart) (.seq x.2.result.expr (.look .textEnd))).toNode }
          (hostText (Bytes.ofString "1.evil.net")))) = some (false, false) := by
  decide +kernel

theorem accepts_iff_anchored_bar : ∃ p flags unit, Pattern.ofText .estimated "1|2" = .ok p ∧
    unit? (expression "1|2".toList) = some (flags, unit) ∧ flags.verbose = false ∧
    (p.accepts (Bytes.ofString "1.evil.net") = true ↔ ∃ pre part post,
      hostText (Bytes.ofString "1.evil.net") = pre ++ (part ++ post) ∧
        Anchored unit.branches (dollar flags) pre part post) := by
  obtain ⟨p, hp, -⟩ := map_eq_ok.mp read_bar.1
  obtain ⟨⟨flags, unit⟩, hunit, hread⟩ := Option.map_eq_some_iff.mp read_bar.2
  have hverbose : flags.verbose = false := (Prod.ext_iff.mp hread).1
  exact ⟨p, flags, unit, hp, hunit, hverbose,
    (accepts_iff_anchored hp hunit hverbose (Bytes.ofString "1.evil.net")).1⟩

/-- The pattern `1|2` is one unit that does not describe the whole of `1.evil.net`, but accepts
it. -/
theorem bar_parts_anchors : ∃ p flags unit, Pattern.ofText .estimated "1|2" = .ok p ∧
    unit? (expression "1|2".toList) = some (flags, unit) ∧
    p.accepts (Bytes.ofString "1.evil.net") = true ∧
    ¬ unit.result.expr.Spans [] (hostText (Bytes.ofString "1.evil.net")) [] := by
  obtain ⟨p, hp, haccepts⟩ := map_eq_ok.mp read_bar.1
  obtain ⟨⟨flags, unit⟩, hunit, hread⟩ := Option.map_eq_some_iff.mp read_bar.2
  refine ⟨p, flags, unit, hp, hunit, haccepts, fun hspans => ?_⟩
  have hmatch := (spans_whole_iff (ordered_unit hunit).result _).mp hspans
  exact Bool.false_ne_true ((Prod.ext_iff.mp hread).2.symm.trans hmatch)

end Gatehouse.Host
