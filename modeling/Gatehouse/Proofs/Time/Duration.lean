import Mathlib.Algebra.GroupWithZero.Nat
import Gatehouse.Proofs.Text
import Gatehouse.Time.Duration

/-!
# Reading back the text of a duration

The text of a duration is a sequence of groups, each a number with the name of a unit. `parse?`
adds the groups up one after the other (`parse?_spaced`), the sum of groups that together stay
below the limit is what they stand for (`foldlM_add`), and the groups of the text of a duration
stand for the duration: `parse?_format` is the inverse law, for every duration that has a text.
-/

namespace Gatehouse.Duration

/-! ## Groups -/

/-- A number of a unit under a name of the unit. -/
structure Group where
  count : Nat
  name : List Char
  unit : Unit

namespace Group

/-- The text of a group. -/
def text (g : Group) : List Char := Nat.toDigits 10 g.count ++ g.name

/-- Adds a group to a span. -/
def addTo? (g : Group) (d : Duration) : Option Duration := d.addUnits? g.count none g.unit

/-- A group that can be read: its number is below the limit and its name stands for its unit. -/
structure Readable (g : Group) : Prop where
  count_lt : g.count < limit
  ofName : Unit.ofName? g.name = some g.unit
  letters : ∀ c ∈ g.name, isUnitLetter c

end Group

theorem Group.count_eq_cons (g : Group) :
    ∃ c cs, Nat.toDigits 10 g.count = c :: cs ∧ c.isDigit := by
  obtain ⟨c, cs, hcs⟩ := List.exists_cons_of_ne_nil (Nat.toDigits_ne_nil (n := g.count) (b := 10))
  exact ⟨c, cs, hcs, Text.isDigit_of_mem_toDigits (n := g.count) (hcs ▸ List.mem_cons_self)⟩

/-- Groups with a blank between each two. -/
def spaced (gs : List Group) : List Char := [' '].intercalate (gs.map Group.text)

theorem spaced_cons (g : Group) {gs : List Group} (h : gs ≠ []) :
    spaced (g :: gs) = g.text ++ ' ' :: spaced gs := by
  have hmap : gs.map Group.text ≠ [] := by simpa using h
  unfold spaced
  rw [List.map_cons, List.intercalate_cons_of_ne_nil hmap]
  simp

/-! ## Letters of units -/

theorem isAlpha_toNat {c : Char} (h : c.isAlpha) :
    (65 ≤ c.toNat ∧ c.toNat ≤ 90) ∨ (97 ≤ c.toNat ∧ c.toNat ≤ 122) := by
  change (c.isUpper || (decide (97 ≤ c.toNat) && decide (c.toNat ≤ 122))) = true at h
  rcases (Bool.or_eq_true _ _).mp h with hupper | hlower
  · exact .inl (of_decide_eq_true hupper)
  · have hrange := (Bool.and_eq_true _ _).mp hlower
    exact .inr ⟨of_decide_eq_true hrange.1, of_decide_eq_true hrange.2⟩

theorem isDigit_toNat {c : Char} : c.isDigit ↔ 48 ≤ c.toNat ∧ c.toNat ≤ 57 := Char.isDigit_iff_toNat

/-- A letter of a unit's name is neither a digit nor a blank. -/
theorem isUnitLetter_separate {c : Char} (h : isUnitLetter c) :
    c.isDigit = false ∧ Text.isBlank c = false := by
  simp only [isUnitLetter, Bool.or_eq_true, beq_iff_eq] at h
  rcases h with h | rfl
  · have hrange := isAlpha_toNat h
    constructor
    · rw [Bool.eq_false_iff, ne_eq, isDigit_toNat]
      omega
    · simp only [Text.isBlank, Bool.or_eq_false_iff, Bool.and_eq_false_iff, beq_eq_false_iff_ne,
        decide_eq_false_iff_not]
      omega
  · decide

theorem isBlank_of_isDigit {c : Char} (h : c.isDigit) : Text.isBlank c = false := by
  have hrange := isDigit_toNat.mp h
  simp only [Text.isBlank, Bool.or_eq_false_iff, Bool.and_eq_false_iff, beq_eq_false_iff_ne,
    decide_eq_false_iff_not]
  omega

theorem Group.Readable.name_ne_nil {g : Group} (hg : g.Readable) : g.name ≠ [] := by
  intro h
  have hname := hg.ofName
  have hnone : Unit.ofName? [] = none := by decide
  rw [h, hnone] at hname
  cases hname

/-! ## Reading a number -/

/-- The number that digits make behind a number. -/
def continued (n : Nat) (ds : List Char) : Nat := ds.foldl (fun n c => n * 10 + digit c) n

theorem le_continued (n : Nat) (ds : List Char) : n ≤ continued n ds := by
  induction ds generalizing n with
  | nil => exact Nat.le_refl n
  | cons c ds ih =>
    have hstep : n ≤ n * 10 + digit c := by omega
    exact Nat.le_trans hstep (ih (n * 10 + digit c))

/-- Digits are read as long as the number stays below the limit. -/
theorem whole_digits {n : Nat} {ds rest : List Char} (hd : ∀ c ∈ ds, c.isDigit)
    (hlt : continued n ds < limit) : whole n (ds ++ rest) = whole (continued n ds) rest := by
  induction ds generalizing n with
  | nil => rfl
  | cons c ds ih =>
    have hc : c.isDigit := hd c List.mem_cons_self
    have hnext : n * 10 + digit c < limit :=
      Nat.lt_of_le_of_lt (le_continued (n * 10 + digit c) ds) hlt
    have hbound : bounded (n * 10 + digit c) = some (n * 10 + digit c) := if_pos hnext
    rw [List.cons_append, whole, if_pos hc, hbound]
    exact ih (fun x hx => hd x (List.mem_cons_of_mem c hx)) hlt

/-- A number ends at the letter of a unit. -/
theorem whole_letter {n : Nat} {c : Char} {rest : List Char} (hc : isUnitLetter c) :
    whole n (c :: rest) = some (n, c :: rest) := by
  obtain ⟨hdigit, hblank⟩ := isUnitLetter_separate hc
  simp [whole, hdigit, hblank]

/-- The number of a group is read up to the group's name. -/
theorem whole_group {g : Group} (hg : g.Readable) {c : Char} {cs : List Char}
    (hcs : Nat.toDigits 10 g.count = c :: cs) (rest : List Char) :
    whole (digit c) (cs ++ (g.name ++ rest)) = some (g.count, g.name ++ rest) := by
  have hvalue : continued (digit c) cs = g.count := by
    have h := Text.foldl_toDigits g.count
    rw [hcs, List.foldl_cons, Nat.zero_mul, Nat.zero_add] at h
    exact h
  have hdigits : ∀ x ∈ cs, x.isDigit := fun x hx =>
    Text.isDigit_of_mem_toDigits (n := g.count) (hcs ▸ List.mem_cons_of_mem c hx)
  have hlt : continued (digit c) cs < limit := hvalue ▸ hg.count_lt
  rw [whole_digits hdigits hlt, hvalue]
  obtain ⟨l, ls, hname⟩ := List.exists_cons_of_ne_nil hg.name_ne_nil
  have hl : isUnitLetter l := hg.letters l (hname ▸ List.mem_cons_self)
  rw [hname, List.cons_append]
  exact whole_letter hl

/-! ## Reading groups -/

/-- What follows a group: nothing, or a character that is no letter of a unit. -/
def EndsGroup (rest : List Char) : Prop := ∀ c ∈ rest.head?, isUnitLetter c = false

theorem takeWhile_name {g : Group} (hg : g.Readable) {rest : List Char} (hr : EndsGroup rest) :
    (g.name ++ rest).takeWhile isUnitLetter = g.name := by
  rw [List.takeWhile_append_of_pos hg.letters]
  cases rest with
  | nil => simp
  | cons c rest => simp [hr c rfl]

theorem dropWhile_name {g : Group} (hg : g.Readable) {rest : List Char} (hr : EndsGroup rest) :
    (g.name ++ rest).dropWhile isUnitLetter = rest := by
  rw [List.dropWhile_append_of_pos hg.letters]
  exact dropWhile_eq_self hr

/-- There is no fraction in front of a name. -/
theorem fraction?_name {g : Group} (hg : g.Readable) (rest : List Char) :
    fraction? (g.name ++ rest) = some (none, g.name ++ rest) := by
  obtain ⟨l, ls, hname⟩ := List.exists_cons_of_ne_nil hg.name_ne_nil
  have hl : isUnitLetter l := hg.letters l (hname ▸ List.mem_cons_self)
  rw [hname, List.cons_append]
  have hpoint : l ≠ '.' := by
    rintro rfl
    exact absurd hl (by decide)
  unfold fraction?
  split
  · next heq =>
    rw [List.cons.injEq] at heq
    exact absurd heq.1 hpoint
  · rfl

/-- The last group is added and nothing is left. -/
theorem groups_last {g : Group} (hg : g.Readable) {c : Char} {cs : List Char}
    (hcs : Nat.toDigits 10 g.count = c :: cs) (d : Duration) (fuel : Nat) :
    groups d (digit c) (cs ++ g.name) (fuel + 1) = g.addTo? d := by
  have hend : EndsGroup [] := by simp [EndsGroup]
  have hwhole := whole_group hg hcs []
  have hfraction := fraction?_name hg []
  have htake := takeWhile_name hg hend
  have hdrop := dropWhile_name hg hend
  rw [List.append_nil] at hwhole hfraction htake hdrop
  simp [groups, hwhole, hfraction, htake, hdrop, hg.ofName, Group.addTo?]

/-- A group with a blank behind it is added, and reading goes on at the digit behind the blank. -/
theorem groups_blank {g : Group} (hg : g.Readable) {c e : Char} {cs es : List Char}
    (hcs : Nat.toDigits 10 g.count = c :: cs) (he : e.isDigit) (d : Duration) (fuel : Nat) :
    groups d (digit c) (cs ++ (g.name ++ ' ' :: e :: es)) (fuel + 1) =
      (g.addTo? d).bind fun d => groups d (digit e) es fuel := by
  have hend : EndsGroup (' ' :: e :: es) := by
    rintro _ ⟨⟩
    decide
  have hfirst : firstDigit (e :: es) = some (some (digit e, es)) := if_pos he
  have hdigit : ' '.isDigit = false := by decide
  have hblank : Text.isBlank ' ' = true := by decide
  simp [groups, whole_group hg hcs, fraction?_name hg, takeWhile_name hg hend,
    dropWhile_name hg hend, hg.ofName, Group.addTo?, hfirst, hdigit, hblank]

/-- The text of groups begins with a digit, and reading on from it adds the groups up. -/
theorem groups_spaced (g : Group) (gs : List Group) (hgs : ∀ x ∈ g :: gs, x.Readable)
    (d : Duration) {fuel : Nat} (hfuel : gs.length < fuel) :
    ∃ c cs, spaced (g :: gs) = c :: cs ∧ c.isDigit ∧
      groups d (digit c) cs fuel = (g :: gs).foldlM (fun d g => g.addTo? d) d := by
  induction gs generalizing g d fuel with
  | nil =>
    obtain ⟨fuel, rfl⟩ := Nat.exists_eq_add_one_of_ne_zero (Nat.ne_zero_of_lt hfuel)
    obtain ⟨c, cs, hcs, hdigit⟩ := g.count_eq_cons
    refine ⟨c, cs ++ g.name, ?_, hdigit, ?_⟩
    · simp [spaced, Group.text, hcs]
    · rw [groups_last (hgs g List.mem_cons_self) hcs]
      simp
  | cons g' gs ih =>
    obtain ⟨fuel, rfl⟩ := Nat.exists_eq_add_one_of_ne_zero (Nat.ne_zero_of_lt hfuel)
    obtain ⟨c, cs, hcs, hdigit⟩ := g.count_eq_cons
    have hgs' : ∀ x ∈ g' :: gs, x.Readable := fun x hx => hgs x (List.mem_cons_of_mem g hx)
    have hrest : gs.length < fuel := Nat.lt_of_succ_lt_succ hfuel
    obtain ⟨e, es, hspaced, he, -⟩ := ih g' hgs' d hrest
    refine ⟨c, cs ++ (g.name ++ ' ' :: e :: es), ?_, hdigit, ?_⟩
    · rw [spaced_cons g (List.cons_ne_nil g' gs), hspaced, Group.text, hcs]
      simp
    · rw [groups_blank (hgs g List.mem_cons_self) hcs he, List.foldlM_cons, Option.bind_eq_bind]
      congr 1
      funext d'
      -- the span so far differs from `d`, the text of the other groups does not
      obtain ⟨e', es', hspaced', -, hsum⟩ := ih g' hgs' d' hrest
      rw [hspaced, List.cons.injEq] at hspaced'
      rw [hspaced'.1, hspaced'.2]
      exact hsum

/-- The text of groups ends with a letter of a unit. -/
theorem isUnitLetter_getLast?_spaced {gs : List Group} (hgs : ∀ g ∈ gs, g.Readable) :
    ∀ c ∈ (spaced gs).getLast?, isUnitLetter c := by
  induction gs with
  | nil => exact fun c hc => nomatch hc
  | cons g gs ih =>
    have hg : g.Readable := hgs g List.mem_cons_self
    by_cases h : gs = []
    · subst h
      have hspaced : spaced [g] = Nat.toDigits 10 g.count ++ g.name := by simp [spaced, Group.text]
      intro c hc
      rw [hspaced, List.getLast?_append_of_ne_nil _ hg.name_ne_nil] at hc
      exact hg.letters c (List.mem_of_getLast? hc)
    · obtain ⟨g', gs, rfl⟩ := List.exists_cons_of_ne_nil h
      have hgs' : ∀ x ∈ g' :: gs, x.Readable := fun x hx => hgs x (List.mem_cons_of_mem g hx)
      obtain ⟨c, cs, hspaced, -⟩ := groups_spaced g' gs hgs' 0 (Nat.lt_succ_self gs.length)
      have hne : ' ' :: spaced (g' :: gs) ≠ [] := List.cons_ne_nil _ _
      intro x hx
      rw [spaced_cons g h, List.getLast?_append_of_ne_nil _ hne, hspaced, List.getLast?_cons_cons,
        ← hspaced] at hx
      exact ih hgs' x hx

theorem length_le_spaced (gs : List Group) : gs.length ≤ (spaced gs).length := by
  induction gs with
  | nil => exact Nat.zero_le _
  | cons g gs ih =>
    obtain ⟨c, cs, hcs, -⟩ := g.count_eq_cons
    by_cases h : gs = []
    · subst h
      simp [spaced, Group.text, hcs]
    · rw [spaced_cons g h, Group.text, hcs]
      simp only [List.length_cons, List.length_append]
      omega

/-- The text of groups stands for the sum of the groups. -/
theorem parse?_spaced {gs : List Group} (hne : gs ≠ []) (hgs : ∀ g ∈ gs, g.Readable) :
    parse? (spaced gs) = gs.foldlM (fun d g => g.addTo? d) 0 := by
  obtain ⟨g, gs, rfl⟩ := List.exists_cons_of_ne_nil hne
  have hfuel : gs.length < (spaced (g :: gs)).length := length_le_spaced (g :: gs)
  obtain ⟨c, cs, hspaced, hc, hsum⟩ := groups_spaced g gs hgs 0 hfuel
  have hzero : spaced (g :: gs) ≠ ['0'] := by
    intro h
    have hlast := isUnitLetter_getLast?_spaced hgs '0' (by rw [h]; rfl)
    exact absurd hlast (by decide)
  have hfirst : firstDigit (spaced (g :: gs)) = some (some (digit c, cs)) := by
    rw [hspaced]
    exact if_pos hc
  rw [parse?, if_neg hzero, hfirst, Option.bind_eq_bind, Option.bind_some]
  exact hsum

/-! ## Adding groups up -/

namespace Group

/-- The whole seconds of a group of a unit that is counted in seconds. -/
def seconds (g : Group) : Nat := g.unit.scale.seconds * g.count

/-- The nanoseconds of a group of a unit that is counted in nanoseconds. -/
def nanos (g : Group) : Nat := g.unit.scale.nanos * g.count

end Group

/-- Adding a scale that carries nothing into the seconds. -/
theorem add?_of_lt {d : Duration} {s : Scale} (hs : d.seconds + s.seconds < limit)
    (hn : d.subsecond + s.nanos < 1000000000) :
    d.add? s = some (d + s.seconds * 1000000000 + s.nanos) := by
  have hlimit : 1000000000 ≤ limit := by decide
  have hcarry : ¬d.subsecond + s.nanos > 1000000000 := by omega
  have hnanos : bounded (d.subsecond + s.nanos) = some (d.subsecond + s.nanos) :=
    if_pos (Nat.lt_of_lt_of_le hn hlimit)
  have hseconds : bounded (d.seconds + s.seconds) = some (d.seconds + s.seconds) := if_pos hs
  have hsum : (d.seconds + s.seconds) * 1000000000 + (d.subsecond + s.nanos) =
      d + s.seconds * 1000000000 + s.nanos := by
    unfold Duration.seconds Duration.subsecond
    omega
  rw [add?, hnanos, Option.bind_eq_bind, Option.bind_some, if_neg hcarry, if_neg hcarry,
    Option.bind_some]
  change (bounded (d.seconds + s.seconds)).bind _ = _
  rw [hseconds, Option.bind_some]
  exact congrArg some hsum

theorem addTo?_of_lt {d : Duration} {g : Group} (hs : d.seconds + g.seconds < limit)
    (hn : d.subsecond + g.nanos < 1000000000) :
    g.addTo? d = some (d + g.seconds * 1000000000 + g.nanos) := by
  have hlimit : 1000000000 ≤ limit := by decide
  have hseconds : bounded g.seconds = some g.seconds := if_pos (by omega)
  have hnanos : bounded g.nanos = some g.nanos := if_pos (by omega)
  have htimes : g.unit.scale.times? g.count = some ⟨g.seconds, g.nanos⟩ := by
    unfold Group.seconds Group.nanos at *
    simp [Scale.times?, hseconds, hnanos]
  have hadd := add?_of_lt (s := ⟨g.seconds, g.nanos⟩) hs hn
  simp [Group.addTo?, addUnits?, htimes, hadd]

/-- Groups that together stay below the limit, and below a second in what is counted in
nanoseconds, add up to what they stand for. -/
theorem foldlM_addTo? (gs : List Group) {d : Duration}
    (hs : d.seconds + (gs.map Group.seconds).sum < limit)
    (hn : d.subsecond + (gs.map Group.nanos).sum < 1000000000) :
    gs.foldlM (fun d g => g.addTo? d) d =
      some (d + (gs.map Group.seconds).sum * 1000000000 + (gs.map Group.nanos).sum) := by
  induction gs generalizing d with
  | nil => rfl
  | cons g gs ih =>
    rw [List.map_cons, List.sum_cons] at hs hn
    have hadd := addTo?_of_lt (d := d) (g := g) (by omega) (by omega)
    have hseconds : Duration.seconds (d + g.seconds * 1000000000 + g.nanos) =
        d.seconds + g.seconds := by
      unfold Duration.seconds Duration.subsecond at *
      omega
    have hsubsecond : Duration.subsecond (d + g.seconds * 1000000000 + g.nanos) =
        d.subsecond + g.nanos := by
      unfold Duration.subsecond at *
      omega
    have hrest := ih (d := d + g.seconds * 1000000000 + g.nanos) (by omega) (by omega)
    rw [List.foldlM_cons, hadd, Option.bind_eq_bind, Option.bind_some, hrest, Option.some.injEq,
      List.map_cons, List.sum_cons, List.map_cons, List.sum_cons]
    change @Eq Nat _ _
    omega

/-! ## The groups of a duration -/

/-- A group of a unit that is spelled out, with its plural. -/
def pluralGroup (n : Nat) (name : String) (u : Unit) : Group :=
  ⟨n, if n = 1 then name.toList else name.toList ++ ['s'], u⟩

/-- A group of a unit that is abbreviated. -/
def abbreviatedGroup (n : Nat) (name : String) (u : Unit) : Group := ⟨n, name.toList, u⟩

/-- The groups of a duration, those of no units included. -/
def allGroups (d : Duration) : List Group :=
  let ofYear := d.seconds % 31557600
  let ofMonth := ofYear % 2630016
  let ofDay := ofMonth % 86400
  [pluralGroup (d.seconds / 31557600) "year" .year] ++
  [pluralGroup (ofYear / 2630016) "month" .month] ++
  [pluralGroup (ofMonth / 86400) "day" .day] ++
  [abbreviatedGroup (ofDay / 3600) "h" .hour] ++ [abbreviatedGroup (ofDay % 3600 / 60) "m" .minute] ++
  [abbreviatedGroup (ofDay % 60) "s" .second] ++ [abbreviatedGroup (d.subsecond / 1000000) "ms" .millisecond] ++
  [abbreviatedGroup (d.subsecond / 1000 % 1000) "us" .microsecond] ++
  [abbreviatedGroup (d.subsecond % 1000) "ns" .nanosecond]

theorem sum_seconds_allGroups (d : Duration) :
    ((allGroups d).map Group.seconds).sum = d.seconds := by
  simp only [allGroups, List.map_append, List.map_cons, List.map_nil, List.sum_append,
    List.sum_cons, List.sum_nil, Group.seconds, pluralGroup, abbreviatedGroup, Unit.scale]
  omega

theorem sum_nanos_allGroups (d : Duration) :
    ((allGroups d).map Group.nanos).sum = d.subsecond := by
  simp only [allGroups, List.map_append, List.map_cons, List.map_nil, List.sum_append,
    List.sum_cons, List.sum_nil, Group.nanos, pluralGroup, abbreviatedGroup, Unit.scale]
  omega

theorem pluralGroup_readable {n : Nat} {name : String} {u : Unit} (hn : n < limit)
    (hone : Unit.ofName? name.toList = some u)
    (hmany : Unit.ofName? (name.toList ++ ['s']) = some u)
    (hletters : name.toList.all isUnitLetter) : (pluralGroup n name u).Readable := by
  rw [List.all_eq_true] at hletters
  unfold pluralGroup
  split
  · exact ⟨hn, hone, hletters⟩
  · refine ⟨hn, hmany, ?_⟩
    intro c hc
    rcases List.mem_append.mp hc with hc | hc
    · exact hletters c hc
    · rw [List.mem_singleton.mp hc]
      rfl

theorem abbreviatedGroup_readable {n : Nat} {name : String} {u : Unit} (hn : n < limit)
    (hname : Unit.ofName? name.toList = some u) (hletters : name.toList.all isUnitLetter) :
    (abbreviatedGroup n name u).Readable := ⟨hn, hname, List.all_eq_true.mp hletters⟩

/-- Every group of a duration that has a text can be read. -/
theorem allGroups_readable {d : Duration} (hd : d.seconds < limit) :
    ∀ g ∈ allGroups d, g.Readable := by
  have hlimit : 1000000000 ≤ limit := by decide
  have hsub : d.subsecond < 1000000000 := Nat.mod_lt d (by decide)
  simp only [allGroups, List.mem_append, List.mem_singleton]
  rintro g ((((((((rfl | rfl) | rfl) | rfl) | rfl) | rfl) | rfl) | rfl) | rfl)
  · exact pluralGroup_readable (by omega) (by decide) (by decide) (by decide)
  · exact pluralGroup_readable (by omega) (by decide) (by decide) (by decide)
  · exact pluralGroup_readable (by omega) (by decide) (by decide) (by decide)
  all_goals exact abbreviatedGroup_readable (by omega) (by decide) (by decide)

/-! ## The text of a duration -/

theorem toString_text (s : String) : toString s = s := rfl

theorem map_toList_plural (n : Nat) (name : String) (u : Unit) :
    (plural n name).map String.toList =
      ([pluralGroup n name u].filter (·.count ≠ 0)).map Group.text := by
  unfold plural
  by_cases hzero : n = 0
  · simp [hzero, pluralGroup]
  · by_cases hone : n = 1
    · simp [hone, pluralGroup, Group.text, Nat.toString_eq_repr, toString_text]
    · simp [hzero, hone, pluralGroup, Group.text, Nat.toString_eq_repr, toString_text]

theorem map_toList_abbreviated (n : Nat) (name : String) (u : Unit) :
    (abbreviated n name).map String.toList =
      ([abbreviatedGroup n name u].filter (·.count ≠ 0)).map Group.text := by
  unfold abbreviated
  by_cases hzero : n = 0
  · simp [hzero, abbreviatedGroup]
  · simp [hzero, abbreviatedGroup, Group.text, Nat.toString_eq_repr, toString_text]

/-- The text of a duration other than zero is made of its groups but for those of no units. -/
theorem toList_format {d : Duration} (hd : d ≠ 0) :
    d.format.toList = spaced ((allGroups d).filter (·.count ≠ 0)) := by
  have hblank : " ".toList = [' '] := rfl
  rw [format, if_neg hd, String.toList_intercalate, hblank, spaced]
  congr 1
  simp only [allGroups, List.filter_append, List.map_append, ← map_toList_plural,
    ← map_toList_abbreviated]

/-- What is left out of a sum is nothing. -/
theorem sum_map_filter_count (f : Group → Nat) (hf : ∀ g : Group, g.count = 0 → f g = 0)
    (gs : List Group) : ((gs.filter (·.count ≠ 0)).map f).sum = (gs.map f).sum := by
  induction gs with
  | nil => rfl
  | cons g gs ih =>
    by_cases h : g.count = 0
    · rw [List.filter_cons_of_neg (by simpa using h), ih, List.map_cons, List.sum_cons, hf g h,
        Nat.zero_add]
    · rw [List.filter_cons_of_pos (by simpa using h), List.map_cons, List.sum_cons, ih,
        List.map_cons, List.sum_cons]

/-- The groups of a duration add up to the duration. -/
theorem foldlM_filter_allGroups {d : Duration} (hd : d.seconds < limit) :
    ((allGroups d).filter (·.count ≠ 0)).foldlM (fun d g => g.addTo? d) 0 = some d := by
  have hsub : d.subsecond < 1000000000 := Nat.mod_lt d (by decide)
  have hseconds : (((allGroups d).filter (·.count ≠ 0)).map Group.seconds).sum = d.seconds := by
    rw [sum_map_filter_count Group.seconds fun g h => by rw [Group.seconds, h, Nat.mul_zero]]
    exact sum_seconds_allGroups d
  have hnanos : (((allGroups d).filter (·.count ≠ 0)).map Group.nanos).sum = d.subsecond := by
    rw [sum_map_filter_count Group.nanos fun g h => by rw [Group.nanos, h, Nat.mul_zero]]
    exact sum_nanos_allGroups d
  have hzero : Duration.seconds 0 = 0 ∧ Duration.subsecond 0 = 0 := ⟨rfl, rfl⟩
  have hsum : 0 + d.seconds * 1000000000 + d.subsecond = d := by
    unfold Duration.seconds Duration.subsecond
    omega
  rw [foldlM_addTo? _ (by rw [hzero.1, hseconds]; omega) (by rw [hzero.2, hnanos]; omega),
    hseconds, hnanos]
  exact congrArg some hsum

theorem filter_allGroups_ne_nil {d : Duration} (hd : d.seconds < limit) (hzero : d ≠ 0) :
    (allGroups d).filter (·.count ≠ 0) ≠ [] := by
  intro hnil
  have hsum := foldlM_filter_allGroups hd
  rw [hnil] at hsum
  exact hzero (Option.some.inj hsum).symm

/-- The text of groups has nothing to trim. -/
theorem trimBy_spaced {gs : List Group} (hne : gs ≠ []) (hgs : ∀ g ∈ gs, g.Readable) :
    Text.trimBy Text.isBlank (spaced gs) = spaced gs := by
  apply dropWhile_reverse_eq_self
  · obtain ⟨g, gs, rfl⟩ := List.exists_cons_of_ne_nil hne
    obtain ⟨c, cs, hspaced, hdigit, -⟩ := groups_spaced g gs hgs 0 (Nat.lt_succ_self gs.length)
    rw [hspaced]
    rintro _ ⟨⟩
    exact isBlank_of_isDigit hdigit
  · intro c hc
    exact (isUnitLetter_separate (isUnitLetter_getLast?_spaced hgs c hc)).2

/-- Every duration that has a text is read back from it. -/
theorem parse?_format {d : Duration} (hd : d.seconds < limit) :
    parse? (Text.trimBy Text.isBlank d.format.toList) = some d := by
  by_cases hzero : d = 0
  · subst hzero
    decide
  · have hgs : ∀ g ∈ (allGroups d).filter (·.count ≠ 0), g.Readable := fun g hg =>
      allGroups_readable hd g (List.mem_of_mem_filter hg)
    have hne := filter_allGroups_ne_nil hd hzero
    rw [toList_format hzero, trimBy_spaced hne hgs, parse?_spaced hne hgs]
    exact foldlM_filter_allGroups hd

end Gatehouse.Duration
