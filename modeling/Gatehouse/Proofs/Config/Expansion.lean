import Mathlib.Data.List.Basic
import Mathlib.Data.List.TakeWhile
import Gatehouse.Config.Environment
import Gatehouse.Proofs.Except

/-!
# Replacing references in one pass

The text of a reference tells the reference (`ofText?_eq_some_iff`), so a text has one scan: the
references that stand leftmost in what is left behind the one before, with the plain text around them
(`Scan`). `expand` follows the scan. Each reference is replaced by the value of its variable or else
by its default as it stands, the plain text is kept, and the first reference that has neither is
reported.
-/

namespace Gatehouse.Config

/-! ## The text of a reference -/

namespace Reference

/-- The text of a reference: a dollar sign with the name in braces, where `:-` and the default follow
the name. -/
def text (r : Reference) : List Char :=
  '$' :: '\x7b' :: (r.name ++ (r.default.elim [] fun d => ':' :: '-' :: d) ++ ['\x7d'])

/-- The name is an identifier, and no brace closes the reference in its default. -/
structure WellFormed (r : Reference) : Prop where
  starts : ∃ c cs, r.name = c :: cs ∧ startsName c
  name : ∀ c ∈ r.name, inName c
  default : ∀ d ∈ r.default, '\x7d' ∉ d

/-- A reference stands at the front of a text. -/
def Leads (text : List Char) : Prop := ∃ r : Reference, r.WellFormed ∧ r.text <+: text

/-- The variable is not set, or not to a text, and there is no default. -/
def IsUnset (env : Environment) (r : Reference) : Prop :=
  env (String.ofList r.name) = none ∧ r.default = none

/-- The variable's value, or else the default. -/
def substitute (env : Environment) (r : Reference) : List Char :=
  ((env (String.ofList r.name)).map String.toList <|> r.default).getD []

variable {env : Environment} {r : Reference} {cs rest : List Char}

instance : Decidable (r.IsUnset env) := inferInstanceAs (Decidable (_ ∧ _))

theorem length_text (r : Reference) : r.text.length = r.size := by
  unfold text size
  cases r.default with
  | none => simp
  | some d =>
    simp
    omega

/-- Behind the brace that opens it a reference is read off its name and what follows the name. -/
theorem ofText?_name (hr : r.WellFormed) {c : Char} (hc : inName c = false) (rest : List Char) :
    ofText? ('$' :: '\x7b' :: (r.name ++ c :: rest)) =
      match c :: rest with
      | '\x7d' :: _ => some { name := r.name }
      | ':' :: '-' :: rest =>
        if rest.contains '\x7d' then
          some { name := r.name, default := some (rest.takeWhile (· != '\x7d')) }
        else none
      | _ => none := by
  obtain ⟨n, ns, hname, hn⟩ := hr.starts
  have hhead : (r.name ++ c :: rest).head?.any startsName = true := by simp [hname, hn]
  have htake : (r.name ++ c :: rest).takeWhile inName = r.name := by
    rw [List.takeWhile_append_of_pos hr.name, List.takeWhile_cons_of_neg (by simp [hc]),
      List.append_nil]
  have hdrop : (r.name ++ c :: rest).dropWhile inName = c :: rest := by
    rw [List.dropWhile_append_of_pos hr.name, List.dropWhile_cons_of_neg (by simp [hc])]
  rw [ofText?, hhead, htake, hdrop]
  rfl

/-- A default ends at the first brace that closes. -/
theorem takeWhile_default {d : List Char} (hd : '\x7d' ∉ d) (rest : List Char) :
    (d ++ '\x7d' :: rest).takeWhile (· != '\x7d') = d := by
  have hinside : ∀ c ∈ d, (c != '\x7d') = true := fun c hc => by
    have hne : c ≠ '\x7d' := fun heq => hd (heq ▸ hc)
    simpa using hne
  rw [List.takeWhile_append_of_pos hinside, List.takeWhile_cons_of_neg (by simp), List.append_nil]

/-- A reference is read off a text that begins with its text. -/
theorem ofText?_text (hr : r.WellFormed) (rest : List Char) : ofText? (r.text ++ rest) = some r := by
  obtain ⟨name, default⟩ := r
  cases default with
  | none =>
    have htext : text ⟨name, none⟩ ++ rest = '$' :: '\x7b' :: (name ++ '\x7d' :: rest) := by
      simp [text]
    rw [htext]
    exact ofText?_name hr (by decide) rest
  | some d =>
    have htext : text ⟨name, some d⟩ ++ rest =
        '$' :: '\x7b' :: (name ++ ':' :: '-' :: (d ++ '\x7d' :: rest)) := by
      simp [text]
    rw [htext, ofText?_name hr (by decide)]
    simp [takeWhile_default (hr.default d rfl)]

/-- What is read off a text is a reference whose text the text begins with. -/
theorem wellFormed_of_ofText? (h : ofText? cs = some r) : r.WellFormed ∧ r.text <+: cs := by
  unfold ofText? at h
  split at h
  case h_2 => cases h
  case h_1 cs =>
    split at h
    · cases h
    next hhead =>
    have hsplit := List.takeWhile_append_dropWhile (p := inName) (l := cs)
    have hname : ∀ c ∈ cs.takeWhile inName, inName c := fun c hc => List.mem_takeWhile_imp hc
    have hstarts : ∃ c rest, cs.takeWhile inName = c :: rest ∧ startsName c := by
      cases cs with
      | nil => exact absurd rfl hhead
      | cons c cs =>
        have hc : startsName c = true := by simpa using hhead
        exact ⟨c, _, List.takeWhile_cons_of_pos (by rw [inName, hc, Bool.true_or]), hc⟩
    dsimp only at h
    split at h
    · next rest hdrop =>
      cases h
      rw [hdrop] at hsplit
      exact ⟨⟨hstarts, hname, nofun⟩, rest, by simpa [text] using hsplit⟩
    · next rest hdrop =>
      split at h
      · next hclosed =>
        obtain ⟨d, tail, rfl, hd⟩ := List.eq_append_cons_of_mem (List.contains_iff_mem.mp hclosed)
        rw [takeWhile_default hd] at h
        cases h
        rw [hdrop] at hsplit
        refine ⟨⟨hstarts, hname, ?_⟩, tail, by simpa [text] using hsplit⟩
        rintro _ ⟨⟩
        exact hd
      · cases h
    · cases h

/-- A text leads with a reference exactly when the reference is read off it. -/
theorem ofText?_eq_some_iff : ofText? cs = some r ↔ r.WellFormed ∧ r.text <+: cs := by
  constructor
  · exact wellFormed_of_ofText?
  · rintro ⟨hr, rest, rfl⟩
    exact ofText?_text hr rest

theorem ofText?_eq_none_iff : ofText? cs = none ↔ ¬ Leads cs := by
  rw [Option.eq_none_iff_forall_ne_some, Leads, not_exists]
  exact forall_congr' fun r => not_congr ofText?_eq_some_iff

/-! ## The value of a reference -/

theorem value_of_isUnset (h : r.IsUnset env) :
    r.value env = .error (.unsetVariable (String.ofList r.name)) := by
  rw [value, h.1, h.2]

theorem value_of_not_isUnset (h : ¬ r.IsUnset env) : r.value env = .ok (r.substitute env) := by
  unfold IsUnset at h
  unfold value substitute
  cases hvar : env (String.ofList r.name) with
  | some v => rfl
  | none =>
    cases hdefault : r.default with
    | some d => rfl
    | none => exact absurd ⟨hvar, hdefault⟩ h

end Reference

/-! ## Scans -/

open Reference (Leads)

/-- The references that a text holds from left to right, each with the plain text in front of it, and
the plain text behind the last one. No reference begins in plain text. -/
inductive Scan :
    (text : List Char) → (found : List (List Char × Reference)) → (last : List Char) → Prop
  | last {text : List Char} (plain : ∀ t, t <:+ text → ¬ Leads t) : Scan text [] text
  | found {plain rest last : List Char} {r : Reference} {found : List (List Char × Reference)}
      (wellFormed : r.WellFormed)
      (leftmost : ∀ t, t <:+ plain → t ≠ [] → ¬ Leads (t ++ (r.text ++ rest)))
      (behind : Scan rest found last) : Scan (plain ++ (r.text ++ rest)) ((plain, r) :: found) last

/-- What a text becomes whose references are replaced. -/
def expansion (env : Environment) (found : List (List Char × Reference)) (last : List Char) :
    List Char :=
  found.flatMap (fun (plain, r) => plain ++ r.substitute env) ++ last

variable {env : Environment} {text plain rest last last' : List Char} {r : Reference}
  {found found' : List (List Char × Reference)}

/-! ## One scan for each text -/

theorem not_leads_nil : ¬ Leads [] := by
  rintro ⟨r, -, hprefix⟩
  exact absurd (List.prefix_nil.mp hprefix) (List.cons_ne_nil _ _)

theorem Scan.cons {c : Char} (h : Scan text found last) (hc : ¬ Leads (c :: text)) :
    ∃ found' last', Scan (c :: text) found' last' := by
  cases h with
  | last hplain =>
    refine ⟨[], c :: text, .last fun t ht => ?_⟩
    rcases List.suffix_cons_iff.mp ht with rfl | ht
    · exact hc
    · exact hplain t ht
  | @found plain rest _ r found hr hleft hrest =>
    have hleft' : ∀ t, t <:+ c :: plain → t ≠ [] → ¬ Leads (t ++ (r.text ++ rest)) := by
      intro t ht hne
      rcases List.suffix_cons_iff.mp ht with rfl | ht
      · exact hc
      · exact hleft t ht hne
    have hscan : Scan (c :: plain ++ (r.text ++ rest)) ((c :: plain, r) :: found) last :=
      .found hr hleft' hrest
    exact ⟨_, last, hscan⟩

/-- Every text can be scanned. -/
theorem exists_scan (text : List Char) : ∃ found last, Scan text found last := by
  induction hn : text.length using Nat.strongRecOn generalizing text with
  | _ n ih =>
    subst hn
    by_cases hleads : Leads text
    · obtain ⟨r, hr, rest, rfl⟩ := hleads
      have hshorter : rest.length < (r.text ++ rest).length := by
        rw [List.length_append, Reference.length_text, Reference.size]
        split <;> omega
      obtain ⟨found, last, hrest⟩ := ih _ hshorter rest rfl
      have hleft : ∀ t, t <:+ [] → t ≠ [] → ¬ Leads (t ++ (r.text ++ rest)) :=
        fun t ht hne => absurd (List.suffix_nil.mp ht) hne
      exact ⟨([], r) :: found, last, .found hr hleft hrest⟩
    · cases text with
      | nil => exact ⟨[], [], .last fun t ht => List.suffix_nil.mp ht ▸ not_leads_nil⟩
      | cons c text =>
        obtain ⟨found, last, hrest⟩ := ih _ (Nat.lt_succ_self text.length) text rfl
        exact hrest.cons hleads

/-- The first of two references is not behind the second. -/
theorem length_plain_le {plain' rest' : List Char} {r' : Reference} (hr' : r'.WellFormed)
    (hleft : ∀ t, t <:+ plain → t ≠ [] → ¬ Leads (t ++ (r.text ++ rest)))
    (h : plain ++ (r.text ++ rest) = plain' ++ (r'.text ++ rest')) :
    plain.length ≤ plain'.length := by
  by_contra hlt
  rcases List.append_eq_append_iff.mp h with ⟨t, rfl, -⟩ | ⟨t, rfl, hbehind⟩
  · simp at hlt
  · refine hleft t (List.suffix_append _ _) ?_ ⟨r', hr', rest', hbehind⟩
    rintro rfl
    simp at hlt

/-- A text has no other scan. -/
theorem Scan.unique (h : Scan text found last) (h' : Scan text found' last') :
    found' = found ∧ last' = last := by
  induction h generalizing found' last' with
  | @last text hplain =>
    cases h' with
    | last => exact ⟨rfl, rfl⟩
    | @found plain rest _ r _ hr =>
      exact absurd ⟨r, hr, rest, rfl⟩ (hplain _ (List.suffix_append _ _))
  | @found plain rest last r found hr hleft hrest ih =>
    generalize htext : plain ++ (r.text ++ rest) = text at h'
    cases h' with
    | last hplain =>
      subst htext
      exact absurd ⟨r, hr, rest, rfl⟩ (hplain _ (List.suffix_append _ _))
    | @found plain' rest' _ r' found' hr' hleft' hrest' =>
      have hlength : plain.length = plain'.length :=
        Nat.le_antisymm (length_plain_le hr' hleft htext) (length_plain_le hr hleft' htext.symm)
      obtain ⟨rfl, hbehind⟩ := List.append_inj htext hlength
      have hread := Reference.ofText?_text hr rest
      rw [hbehind, Reference.ofText?_text hr'] at hread
      cases hread
      obtain rfl := List.append_cancel_left hbehind
      obtain ⟨rfl, rfl⟩ := ih hrest'
      exact ⟨rfl, rfl⟩

/-! ## Following the scan -/

/-- Plain text in front is kept. -/
theorem expandFrom_plain (h : ∀ t, t <:+ plain → t ≠ [] → ¬ Leads (t ++ rest)) :
    expandFrom env 0 (plain ++ rest) = (expandFrom env 0 rest).map (plain ++ ·) := by
  induction plain with
  | nil =>
    rw [List.nil_append]
    cases expandFrom env 0 rest <;> rfl
  | cons c plain ih =>
    have hnone : Reference.ofText? (c :: plain ++ rest) = none :=
      Reference.ofText?_eq_none_iff.mpr (h _ List.suffix_rfl (List.cons_ne_nil c plain))
    have hrest := ih fun t ht => h t (ht.trans (List.suffix_cons c plain))
    rw [List.cons_append] at hnone ⊢
    rw [expandFrom, hnone, hrest]
    cases expandFrom env 0 rest <;> rfl

/-- The characters of a reference are skipped. -/
theorem expandFrom_skip (skipped rest : List Char) :
    expandFrom env skipped.length (skipped ++ rest) = expandFrom env 0 rest := by
  induction skipped with
  | nil => rfl
  | cons c skipped ih => exact ih

/-- A reference in front is replaced. -/
theorem expandFrom_reference (hr : r.WellFormed) :
    expandFrom env 0 (r.text ++ rest) =
      (r.value env >>= fun v => (expandFrom env 0 rest).map (v ++ ·)) := by
  obtain ⟨c, cs, htext⟩ : ∃ c cs, r.text = c :: cs := ⟨_, _, rfl⟩
  have hread := Reference.ofText?_text hr rest
  have hsize : r.size - 1 = cs.length := by rw [← Reference.length_text, htext]; rfl
  rw [htext, List.cons_append] at hread ⊢
  rw [expandFrom, hread]
  simp only [hsize, expandFrom_skip]
  rfl

theorem expandFrom_found (hr : r.WellFormed)
    (hleft : ∀ t, t <:+ plain → t ≠ [] → ¬ Leads (t ++ (r.text ++ rest))) :
    expandFrom env 0 (plain ++ (r.text ++ rest)) =
      (r.value env >>= fun v => (expandFrom env 0 rest).map (plain ++ v ++ ·)) := by
  rw [expandFrom_plain hleft, expandFrom_reference hr]
  cases r.value env with
  | error e => rfl
  | ok v =>
    cases expandFrom env 0 rest with
    | error e => rfl
    | ok cs => simp [ok_bind, Except.map]

/-- If every reference has a value, each is replaced by its own. -/
theorem Scan.expandFrom_eq_ok (h : Scan text found last) (hset : ∀ p ∈ found, ¬ p.2.IsUnset env) :
    expandFrom env 0 text = .ok (expansion env found last) := by
  induction h with
  | @last text hplain =>
    have h : expandFrom env 0 (text ++ []) = (expandFrom env 0 []).map (text ++ ·) :=
      expandFrom_plain fun t ht _ => by
        rw [List.append_nil]
        exact hplain t ht
    rw [List.append_nil] at h
    simp [h, expandFrom, Except.map, expansion]
  | @found plain rest last r found hr hleft hrest ih =>
    rw [List.forall_mem_cons] at hset
    rw [expandFrom_found hr hleft, Reference.value_of_not_isUnset hset.1, ih hset.2]
    simp [ok_bind, Except.map, expansion]

/-- The first reference without a value is reported. -/
theorem Scan.expandFrom_eq_error {before after : List (List Char × Reference)}
    (h : Scan text (before ++ (plain, r) :: after) last) (hbefore : ∀ p ∈ before, ¬ p.2.IsUnset env)
    (hr : r.IsUnset env) :
    expandFrom env 0 text = .error (.unsetVariable (String.ofList r.name)) := by
  induction before generalizing text with
  | nil =>
    cases h with
    | found hwf hleft hrest =>
      rw [expandFrom_found hwf hleft, Reference.value_of_isUnset hr]
      rfl
  | cons p before ih =>
    rw [List.forall_mem_cons] at hbefore
    cases h with
    | found hwf hleft hrest =>
      rw [expandFrom_found hwf hleft, Reference.value_of_not_isUnset hbefore.1,
        ih hrest hbefore.2]
      rfl

/-- Either every reference has a value, or one is the first that has none. -/
theorem forall_or_exists_first_isUnset (env : Environment) (found : List (List Char × Reference)) :
    (∀ p ∈ found, ¬ p.2.IsUnset env) ∨
      ∃ before plain r after, found = before ++ (plain, r) :: after ∧
        (∀ p ∈ before, ¬ p.2.IsUnset env) ∧ r.IsUnset env := by
  cases hfirst : found.find? fun p => decide (p.2.IsUnset env) with
  | none => exact .inl (by simpa using hfirst)
  | some p =>
    obtain ⟨hr, before, after, hfound, hbefore⟩ := List.find?_eq_some_iff_append.mp hfirst
    exact .inr ⟨before, p.1, p.2, after, hfound, by simpa using hbefore, by simpa using hr⟩

/-- **References are replaced in one pass from left to right.** A text has exactly one scan. The text
is expanded exactly if each of its references has a value, and then to the plain text with each
reference replaced by its value, none of which is scanned again. Otherwise the error names the first
variable that has neither a value nor a default. -/
theorem expand_in_one_pass (env : Environment) (text : String) :
    ∃ found last, Scan text.toList found last ∧
      (∀ found' last', Scan text.toList found' last' → found' = found ∧ last' = last) ∧
      (∀ out, expand env text = .ok out ↔
        (∀ p ∈ found, ¬ p.2.IsUnset env) ∧ out.toList = expansion env found last) ∧
      (∀ e, expand env text = .error e ↔
        ∃ before plain r after, found = before ++ (plain, r) :: after ∧
          (∀ p ∈ before, ¬ p.2.IsUnset env) ∧ r.IsUnset env ∧
          e = .unsetVariable (String.ofList r.name)) := by
  obtain ⟨found, last, hscan⟩ := exists_scan text.toList
  refine ⟨found, last, hscan, fun _ _ => hscan.unique, fun out => ?_, fun e => ?_⟩
  · rw [expand, map_eq_ok]
    constructor
    · rintro ⟨cs, hcs, rfl⟩
      rcases forall_or_exists_first_isUnset env found with hset | ⟨_, _, _, _, rfl, hbefore, hr⟩
      · rw [hscan.expandFrom_eq_ok hset] at hcs
        cases hcs
        exact ⟨hset, String.toList_ofList⟩
      · rw [hscan.expandFrom_eq_error hbefore hr] at hcs
        cases hcs
    · rintro ⟨hset, hout⟩
      exact ⟨_, hscan.expandFrom_eq_ok hset, by rw [← hout, String.ofList_toList]⟩
  · rw [expand, map_eq_error]
    constructor
    · intro herror
      rcases forall_or_exists_first_isUnset env found with
        hset | ⟨before, plain, r, after, rfl, hbefore, hr⟩
      · rw [hscan.expandFrom_eq_ok hset] at herror
        cases herror
      · rw [hscan.expandFrom_eq_error hbefore hr] at herror
        cases herror
        exact ⟨before, plain, r, after, rfl, hbefore, hr, rfl⟩
    · rintro ⟨before, plain, r, after, rfl, hbefore, hr, rfl⟩
      exact hscan.expandFrom_eq_error hbefore hr

/-- The default may hold what looks like the beginning of a reference, and a value what looks like a
whole one. -/
example :
    expand (fun name => if name = "A" then some "$\x7bB\x7d" else none)
      "$\x7bA\x7d $\x7b1\x7d $\x7bB:-$\x7bA\x7d\x7d" = .ok "$\x7bB\x7d $\x7b1\x7d $\x7bA\x7d" := by
  decide

end Gatehouse.Config
