import Gatehouse.Proofs.Bytes
import Gatehouse.Proofs.Http.Header

/-!
# Headers of one hop

A value of `connection` lists names, apart from blanks and from case (`Lists`). `stripHopByHop` takes
the fields whose names are listed or are never passed on, leaves all others with their values in
order, and has nothing to take a second time. A value of `connection` that is not all text lists
nothing, whatever names stand in it.
-/

namespace Gatehouse.Http

/-- Whether a name can be the name of a field: it is spelt as itself. -/
def HeaderName.IsLegal (name : HeaderName) : Prop := HeaderName.ofBytes? name.text = some name

/-- Whether a name is one of the comma-separated elements of a value, apart from blanks around it and
from case. -/
def Lists (value : Bytes) (name : HeaderName) : Prop :=
  ∃ element ∈ List.splitOn 0x2C value, (trim element).map Bytes.toLower = name.text

variable {hs : Headers} {name : HeaderName} {bs value : Bytes} {f : Field}

instance : Decidable name.IsLegal := inferInstanceAs (Decidable (_ = _))

instance : Decidable (Lists value name) := List.decidableBEx _ _

/-! ## Spelling a name -/

theorem isTokenByte_toLower : ∀ b : UInt8, isTokenByte (Bytes.toLower b) = isTokenByte b :=
  Bytes.forall_byte (by decide +kernel)

/-- Case does not matter to what is a token. -/
theorem isToken_map_toLower (bs : Bytes) : isToken (bs.map Bytes.toLower) = isToken bs := by
  rw [isToken, isToken, List.isEmpty_map, List.all_map]
  congr 2
  funext b
  exact isTokenByte_toLower b

/-- What spells a name is the name in some case. -/
theorem ofBytes?_eq_some_iff (hlegal : name.IsLegal) :
    HeaderName.ofBytes? bs = some name ↔ bs.map Bytes.toLower = name.text := by
  constructor
  · -- the name is the lower case of what spells it
    intro h
    rw [HeaderName.ofBytes?] at h
    split at h
    · cases h
      rfl
    · cases h
  · -- case changes neither the bytes that a token may have nor their number
    intro h
    rw [HeaderName.IsLegal, HeaderName.ofBytes?, ← h, isToken_map_toLower, List.length_map] at hlegal
    rw [HeaderName.ofBytes?]
    split at hlegal
    · next hspelt => rw [if_pos hspelt, h]
    · cases hlegal

/-! ## What is listed -/

/-- The names that are listed are the elements of those values of `connection` that are text. -/
theorem mem_listedNames_iff (hlegal : name.IsLegal) :
    name ∈ listedNames hs ↔
      ∃ value ∈ hs.values connection, value.all isTextByte = true ∧ Lists value name := by
  have helement (value : Bytes) :
      name ∈ (Bytes.splitOn 0x2C value).filterMap (fun e => HeaderName.ofBytes? (trim e)) ↔
        Lists value name := by
    rw [List.mem_filterMap, Bytes.splitOn_eq]
    exact exists_congr fun e => and_congr_right fun _ => ofBytes?_eq_some_iff hlegal
  simp only [listedNames, List.mem_flatMap, helement, List.mem_filterMap, text?,
    Option.ite_none_right_eq_some, Option.some.injEq]
  constructor
  · rintro ⟨value, ⟨v, hmem, htext, rfl⟩, hlists⟩
    exact ⟨v, hmem, htext, hlists⟩
  · rintro ⟨value, hmem, htext, hlists⟩
    exact ⟨value, ⟨value, hmem, htext, rfl⟩, hlists⟩

/-! ## What is left -/

namespace Headers

/-- A field is left if its name is none of those that are removed. -/
theorem mem_foldl_remove (names : List HeaderName) (hs : Headers) (f : Field) :
    f ∈ names.foldl remove hs ↔ f ∈ hs ∧ f.name ∉ names := by
  induction names generalizing hs with
  | nil => simp
  | cons name names ih =>
    rw [List.foldl_cons, ih, remove, List.mem_filter, decide_eq_true_iff, List.mem_cons, not_or,
      and_assoc]

/-- Nothing is removed if no field has one of the names. -/
theorem foldl_remove_eq_self {names : List HeaderName} (h : ∀ f ∈ hs, f.name ∉ names) :
    names.foldl remove hs = hs := by
  induction names with
  | nil => rfl
  | cons name names ih =>
    have hnone : hs.remove name = hs := by
      rw [remove, List.filter_eq_self]
      intro f hf
      have hname := h f hf
      rw [List.mem_cons, not_or] at hname
      exact decide_eq_true hname.1
    rw [List.foldl_cons, hnone]
    exact ih fun f hf hmem => h f hf (List.mem_cons_of_mem _ hmem)

end Headers

theorem mem_stripHopByHop :
    f ∈ stripHopByHop hs ↔ f ∈ hs ∧ f.name ∉ listedNames hs ∧ f.name ∉ hopByHop := by
  rw [stripHopByHop, Headers.mem_foldl_remove, List.mem_append, not_or]

/-- Once the headers of one hop are gone nothing is listed any more. -/
theorem listedNames_stripHopByHop (hs : Headers) : listedNames (stripHopByHop hs) = [] := by
  have hnone : (stripHopByHop hs).values connection = [] := by
    rw [values_stripHopByHop, if_pos (.inr List.mem_cons_self)]
  rw [listedNames, hnone]
  rfl

/-- There is nothing to take a second time. -/
theorem stripHopByHop_stripHopByHop (hs : Headers) :
    stripHopByHop (stripHopByHop hs) = stripHopByHop hs := by
  have hrest : ∀ f ∈ stripHopByHop hs, f.name ∉ listedNames (stripHopByHop hs) ++ hopByHop := by
    intro f hf
    rw [listedNames_stripHopByHop, List.nil_append]
    exact (mem_stripHopByHop.mp hf).2.2
  exact Headers.foldl_remove_eq_self hrest

/-- **Only the headers of one hop are taken.** Of fields with legal names exactly those are left that
neither have a name that is never passed on nor one that a value of `connection` lists, where a value
counts if it is all text. What is left keeps all its values in their order, and stripping it again
changes nothing. -/
theorem stripHopByHop_leaves_rest (hlegal : ∀ f ∈ hs, f.name.IsLegal) :
    (∀ f, f ∈ stripHopByHop hs ↔
      f ∈ hs ∧ f.name ∉ hopByHop ∧
        ∀ value ∈ hs.values connection, value.all isTextByte = true → ¬ Lists value f.name) ∧
    (∀ f ∈ stripHopByHop hs, (stripHopByHop hs).values f.name = hs.values f.name) ∧
    stripHopByHop (stripHopByHop hs) = stripHopByHop hs := by
  refine ⟨fun f => ?_, fun f hf => ?_, stripHopByHop_stripHopByHop hs⟩
  · rw [mem_stripHopByHop]
    refine and_congr_right fun hf => ?_
    rw [mem_listedNames_iff (hlegal f hf), and_comm]
    refine and_congr_right fun _ => ?_
    simp only [not_exists, not_and]
  · obtain ⟨-, hlisted, hhop⟩ := mem_stripHopByHop.mp hf
    rw [values_stripHopByHop, if_neg (not_or.mpr ⟨hlisted, hhop⟩)]

/-! ## A session of one hop -/

/-- A session that some values of `connection` say is for one hop only. -/
def sessionHeaders (values : List Bytes) : Headers :=
  values.map (⟨connection, ·⟩) ++
    [⟨.literal "x-session", Bytes.ofString "abc"⟩, ⟨.literal "x-trace", [0xE9]⟩]

/-- The second of two values lists the session in another case. -/
theorem stripHopByHop_leaves_rest_session :
    let hs := sessionHeaders [Bytes.ofString "close, a b", Bytes.ofString "\tX-Session ,"]
    (∀ f ∈ hs, f.name.IsLegal) ∧
    ¬ (⟨.literal "x-session", Bytes.ofString "abc"⟩ : Field) ∈ stripHopByHop hs ∧
    (⟨.literal "x-trace", [0xE9]⟩ : Field) ∈ stripHopByHop hs := by
  intro hs
  have hlegal : ∀ f ∈ hs, f.name.IsLegal := by decide
  obtain ⟨hleft, -⟩ := stripHopByHop_leaves_rest hlegal
  refine ⟨hlegal, ?_, ?_⟩
  · rw [hleft]
    rintro ⟨-, -, hunlisted⟩
    exact hunlisted _ (.tail _ (.head _)) (by decide) (by decide)
  · rw [hleft]
    decide

/-- A value of `connection` lists the session, but has a byte that is no text, and the session is
passed on. -/
theorem stripHopByHop_leaves_listed :
    let value := Bytes.ofString "x-session, \u00e9"
    let session : Field := ⟨.literal "x-session", Bytes.ofString "abc"⟩
    let hs := sessionHeaders [value]
    (∀ f ∈ hs, f.name.IsLegal ∧ f.value.all isValueByte = true) ∧
    value ∈ hs.values connection ∧ Lists value session.name ∧ session ∈ stripHopByHop hs := by
  decide

end Gatehouse.Http
