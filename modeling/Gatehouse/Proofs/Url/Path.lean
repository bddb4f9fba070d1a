import Gatehouse.Url.Path
import Gatehouse.Proofs.Url.Percent

/-!
# Normal paths

The paths that `resolve` gives are rooted, have no byte left to escape and no dot segment. Such
paths are called normal, and `resolve` leaves every normal path as it is.
-/

namespace Gatehouse.Url

open Bytes (hexDigit? toLower lowerHex splitOn)

variable {special : Bool} {s t text path : Bytes}

/-! ## Dot segments -/

theorem hexDigit?_eq_some {b v : UInt8} (h : hexDigit? b = some v) :
    v < 16 ∧ toLower b = lowerHex v := by
  grind [hexDigit?, toLower, lowerHex]

theorem eq_of_toLower {c : UInt8} (hc : c = 0x2E ∨ c = 0x25 ∨ c = 0x32) :
    ∀ b, toLower b = c → b = c := by
  grind [toLower]

/-- The spellings of a dot, in lower case. -/
def dotWords : List Bytes := [[0x2E], [0x25, 0x32, 0x65]]

theorem isDot_eq_true : isDot s = true ↔ s.map toLower ∈ dotWords := by
  have hwords : dotWords = [Bytes.ofString ".", Bytes.ofString "%2e"] := by decide
  simp [isDot, hwords]

theorem isDoubleDot_eq_true :
    isDoubleDot s = true ↔ ∃ w ∈ dotWords, ∃ w' ∈ dotWords, s.map toLower = w ++ w' := by
  have hwords : [Bytes.ofString "..", Bytes.ofString ".%2e", Bytes.ofString "%2e.",
      Bytes.ofString "%2e%2e"] = dotWords.flatMap fun w => dotWords.map (w ++ ·) := by decide
  have hmem : isDoubleDot s = true ↔
      s.map toLower ∈ dotWords.flatMap fun w => dotWords.map (w ++ ·) := by
    rw [← hwords]
    simp [isDoubleDot, or_assoc]
  simp only [hmem, List.mem_flatMap, List.mem_map, eq_comm]

/-- A dot is decoded from one of its spellings. -/
theorem lower_of_decode_dot {cs : Bytes} (h : decode s = 0x2E :: cs) :
    ∃ w ∈ dotWords, ∃ rest, decode rest = cs ∧ s.map toLower = w ++ rest.map toLower := by
  revert h
  fun_cases decode s with
  | case1 => rintro ⟨⟩
  | case2 h l rest high low hl hh =>
    intro heq
    rw [List.cons.injEq] at heq
    obtain ⟨hhigh, hlowerh⟩ := hexDigit?_eq_some hh
    obtain ⟨hlow, hlowerl⟩ := hexDigit?_eq_some hl
    -- Two digits below sixteen are those of the number of a dot only if both are right.
    obtain ⟨rfl, rfl⟩ : high = 2 ∧ low = 14 := by
      have hsum := congrArg UInt8.toNat heq.1
      have hhigh' : high.toNat < 16 := hhigh
      have hlow' : low.toNat < 16 := hlow
      simp only [UInt8.toNat_add, UInt8.toNat_mul, UInt8.reduceToNat] at hsum
      exact ⟨UInt8.toNat_inj.mp (by simp; omega), UInt8.toNat_inj.mp (by simp; omega)⟩
    refine ⟨[0x25, 0x32, 0x65], by decide, rest, heq.2, ?_⟩
    rw [List.map_cons, List.map_cons, List.map_cons, hlowerh, hlowerl]
    rfl
  | case3 h l rest hnone => rintro ⟨⟩
  | case4 b rest hb =>
    intro heq
    rw [List.cons.injEq] at heq
    obtain ⟨rfl, hrest⟩ := heq
    exact ⟨[0x2E], by decide, rest, hrest, rfl⟩

/-- Every spelling of a dot is decoded to one. -/
theorem decode_of_lower_dot {w : Bytes} (hw : w ∈ dotWords) (h : s.map toLower = w ++ t) :
    ∃ rest, rest.map toLower = t ∧ decode s = 0x2E :: decode rest := by
  obtain rfl | rfl : w = [0x2E] ∨ w = [0x25, 0x32, 0x65] := by simpa [dotWords] using hw
  · obtain ⟨b, rest, rfl, hb, hrest⟩ := List.map_eq_cons_iff.mp h
    obtain rfl := eq_of_toLower (.inl rfl) b hb
    exact ⟨rest, hrest, decode_cons_of_ne (by decide) rest⟩
  · obtain ⟨a, s, rfl, ha, h⟩ := List.map_eq_cons_iff.mp h
    obtain ⟨b, s, rfl, hb, h⟩ := List.map_eq_cons_iff.mp h
    obtain ⟨c, rest, rfl, hc, hrest⟩ := List.map_eq_cons_iff.mp h
    obtain rfl := eq_of_toLower (.inr (.inl rfl)) a ha
    obtain rfl := eq_of_toLower (.inr (.inr rfl)) b hb
    have hdigit : ∀ c, toLower c = 0x65 → hexDigit? c = some 14 := by grind [toLower, hexDigit?]
    refine ⟨rest, hrest, ?_⟩
    rw [decode, hdigit c hc]
    rfl

/-- A segment stands for its directory when it decodes to one dot. -/
theorem isDot_iff : isDot s = true ↔ decode s = [0x2E] := by
  rw [isDot_eq_true]
  constructor
  · intro hw
    obtain ⟨rest, hrest, hs⟩ := decode_of_lower_dot hw (List.append_nil _).symm
    rw [hs, List.map_eq_nil_iff.mp hrest]
    rfl
  · intro h
    obtain ⟨w, hw, rest, hrest, hs⟩ := lower_of_decode_dot h
    rw [hs, decode_eq_nil.mp hrest, List.map_nil, List.append_nil]
    exact hw

/-- A segment stands for the directory above when it decodes to two dots. -/
theorem isDoubleDot_iff : isDoubleDot s = true ↔ decode s = [0x2E, 0x2E] := by
  rw [isDoubleDot_eq_true]
  constructor
  · rintro ⟨w, hw, w', hw', h⟩
    obtain ⟨last, hlast, hs⟩ := decode_of_lower_dot hw h
    rw [← List.append_nil w'] at hlast
    obtain ⟨rest, hrest, hs'⟩ := decode_of_lower_dot hw' hlast
    rw [hs, hs', List.map_eq_nil_iff.mp hrest]
    rfl
  · intro h
    obtain ⟨w, hw, last, hlast, hs⟩ := lower_of_decode_dot h
    obtain ⟨w', hw', rest, hrest, hs'⟩ := lower_of_decode_dot hlast
    refine ⟨w, hw, w', hw', ?_⟩
    rw [hs, hs', decode_eq_nil.mp hrest, List.map_nil, List.append_nil]

/-- Whether a segment is a dot segment of either kind. -/
def isDotted (segment : Bytes) : Bool := isDot segment || isDoubleDot segment

/-- Escapes neither make a dot segment nor hide one. -/
theorem isDotted_encode (segment : Bytes) :
    isDotted (encode pathSet segment) = isDotted segment := by
  rw [Bool.eq_iff_iff, isDotted, isDotted, Bool.or_eq_true, Bool.or_eq_true, isDot_iff, isDot_iff,
    isDoubleDot_iff, isDoubleDot_iff, decode_encode_pathSet]

/-! ## Segments -/

theorem mem_segments {piece : Bytes} {b : UInt8} (hpiece : piece ∈ segments special text)
    (hb : b ∈ piece) : b ∈ text ∧ isSeparator special b = false := by
  obtain ⟨hmem, hne⟩ := Bytes.mem_of_mem_splitOn hpiece hb
  obtain ⟨c, hc, rfl⟩ := List.mem_map.mp hmem
  by_cases hsep : isSeparator special c = true
  · rw [if_pos hsep] at hne
    exact absurd rfl hne
  · rw [if_neg hsep]
    exact ⟨hc, by simpa using hsep⟩

theorem segments_of_clean (h : ∀ b ∈ text, b ≠ 0x5C) :
    segments special text = splitOn 0x2F text := by
  rw [segments, List.map_congr_left (g := id), List.map_id]
  intro b hb
  by_cases hsep : isSeparator special b = true
  · have hslash : b = 0x2F := by simpa [isSeparator, h b hb] using hsep
    rw [if_pos hsep, hslash]
    rfl
  · rw [if_neg hsep]
    rfl

/-- What holds of the empty segment and every segment that is no dot segment holds of what is
left when the dot segments are resolved. -/
theorem forall_mem_resolveSegments {P : Bytes → Prop} {above segs : List Bytes} (hnil : P [])
    (habove : ∀ s ∈ above, P s) (hsegs : ∀ s ∈ segs, isDotted s = false → P s) :
    ∀ s ∈ resolveSegments above segs, P s := by
  have hpop : ∀ {above : List Bytes}, (∀ s ∈ above, P s) → ∀ s ∈ pop above, P s := by
    intro above habove s hs
    fun_cases pop above with
    | case1 => exact absurd hs (by simp [pop])
    | case2 segment above hdrive => exact habove s (by simpa [pop, hdrive] using hs)
    | case3 segment above hdrive =>
      exact habove s (List.mem_cons_of_mem _ (by simpa [pop, hdrive] using hs))
  fun_induction resolveSegments above segs with
  | case1 above => simpa using habove
  -- A dot segment at the end leaves an empty segment behind.
  | case2 above last hdd =>
    simpa only [List.mem_reverse] using List.forall_mem_cons.mpr ⟨hnil, hpop habove⟩
  | case3 above last hdd hd =>
    simpa only [List.mem_reverse] using List.forall_mem_cons.mpr ⟨hnil, habove⟩
  | case4 above last hdd hd =>
    have hlast := hsegs last List.mem_cons_self (by simp [isDotted, hdd, hd])
    simpa only [List.mem_reverse] using List.forall_mem_cons.mpr ⟨hlast, habove⟩
  | case5 above segment rest hne hdd ih =>
    exact ih (hpop habove) fun s hs => hsegs s (List.mem_cons_of_mem _ hs)
  | case6 above segment rest hne hdd hd ih =>
    exact ih habove fun s hs => hsegs s (List.mem_cons_of_mem _ hs)
  | case7 above segment rest hne hdd hd ih =>
    have hsegment := hsegs segment List.mem_cons_self (by simp [isDotted, hdd, hd])
    exact ih (List.forall_mem_cons.mpr ⟨hsegment, habove⟩) fun s hs =>
      hsegs s (List.mem_cons_of_mem _ hs)

theorem resolveSegments_ne_nil {above segs : List Bytes} (h : segs ≠ []) :
    resolveSegments above segs ≠ [] := by
  fun_induction resolveSegments above segs with
  | case1 above => exact absurd rfl h
  | case2 above last hdd => simp
  | case3 above last hdd hd => simp
  | case4 above last hdd hd => simp
  | case5 above segment rest hne hdd ih => exact ih (by simpa using hne)
  | case6 above segment rest hne hdd hd ih => exact ih (by simpa using hne)
  | case7 above segment rest hne hdd hd ih => exact ih (by simpa using hne)

theorem resolveSegments_of_plain {above segs : List Bytes} (h : ∀ s ∈ segs, isDotted s = false) :
    resolveSegments above segs = above.reverse ++ segs := by
  fun_induction resolveSegments above segs with
  | case1 above => simp
  | case2 above last hdd => simp [isDotted, hdd] at h
  | case3 above last hdd hd => simp [isDotted, hd] at h
  | case4 above last hdd hd => simp
  | case5 above segment rest hne hdd ih => simp [isDotted, hdd] at h
  | case6 above segment rest hne hdd hd ih => simp [isDotted, hd] at h
  | case7 above segment rest hne hdd hd ih =>
    rw [ih fun s hs => h s (List.mem_cons_of_mem _ hs)]
    simp

/-- Resolving takes away at least the dot segments. -/
theorem length_resolveSegments_le (above segs : List Bytes) :
    (resolveSegments above segs).flatten.length + (segs.filter isDotted).flatten.length ≤
      above.flatten.length + segs.flatten.length := by
  have hpop : ∀ above : List Bytes, (pop above).flatten.length ≤ above.flatten.length := by
    intro above
    fun_cases pop above with
    | case1 => exact Nat.le_refl _
    | case2 segment above hdrive => exact Nat.le_refl _
    | case3 segment above hdrive => simp
  fun_induction resolveSegments above segs with
  | case1 above => simp
  | case2 above last hdd =>
    have := hpop above
    simp [isDotted, hdd] at this ⊢
    omega
  | case3 above last hdd hd => simp [isDotted, hd]
  | case4 above last hdd hd => simp [isDotted, hdd, hd]
  | case5 above segment rest hne hdd ih =>
    have := hpop above
    simp [isDotted, hdd] at this ih ⊢
    omega
  | case6 above segment rest hne hdd hd ih =>
    simp [isDotted, hd] at ih ⊢
    omega
  | case7 above segment rest hne hdd hd ih =>
    simp [isDotted, hdd, hd] at ih ⊢
    omega

/-! ## Normal paths -/

/-- A path that is rooted, has nothing to escape and no dot segment. -/
structure IsNormal (path : Bytes) : Prop where
  rooted : path.head? = some 0x2F
  clean : ∀ b ∈ path, pathSet b = false ∧ b ≠ 0x5C
  plain : ∀ piece ∈ splitOn 0x2F path, isDotted piece = false

instance (path : Bytes) : Decidable (IsNormal path) :=
  decidable_of_iff
    (path.head? = some 0x2F ∧ (path.all fun b => !pathSet b && b != 0x5C) = true ∧
      ((splitOn 0x2F path).all fun piece => !isDotted piece) = true) (by
    simp only [List.all_eq_true, Bool.and_eq_true, Bool.not_eq_true', bne_iff_ne]
    exact ⟨fun ⟨hrooted, hclean, hplain⟩ => ⟨hrooted, hclean, hplain⟩,
      fun h => ⟨h.rooted, h.clean, h.plain⟩⟩)

/-- A segment between two separators with nothing to escape is no longer changed by escaping. -/
theorem clean_encode {segment : Bytes} (h : ∀ b ∈ segment, b ≠ 0x2F ∧ b ≠ 0x5C) :
    ∀ b ∈ encode pathSet segment, pathSet b = false ∧ b ≠ 0x2F ∧ b ≠ 0x5C := by
  intro b hb
  rcases mem_encode hb with ⟨hmem, hset⟩ | ⟨c, -, -, hescape⟩
  · exact ⟨hset, h b hmem⟩
  · exact mem_escape hescape

theorem resolve_slash (special : Bool) (text : Bytes) :
    resolve special (0x2F :: text) =
      (resolveSegments [] (segments special text)).flatMap fun s => 0x2F :: encode pathSet s := by
  simp [resolve, isSeparator]

/-- A path is resolved as if a slash stood in front of it. -/
theorem exists_resolve_eq (special : Bool) (text : Bytes) :
    ∃ rest, resolve special text = resolve special (0x2F :: rest) := by
  cases text with
  | nil => exact ⟨[], by rw [resolve_slash]; rfl⟩
  | cons b rest =>
    by_cases hb : isSeparator special b = true
    · exact ⟨rest, by rw [resolve_slash, resolve]; simp only [if_pos hb]⟩
    · exact ⟨b :: rest, by rw [resolve_slash, resolve]; simp only [if_neg hb]⟩

/-- Nothing is left to escape in a path that is resolved. -/
theorem pathSet_of_mem_resolve : ∀ b ∈ resolve special text, pathSet b = false := by
  obtain ⟨rest, hrest⟩ := exists_resolve_eq special text
  rw [hrest, resolve_slash]
  intro b hb
  obtain ⟨s, -, hb⟩ := List.mem_flatMap.mp hb
  rcases List.mem_cons.mp hb with rfl | hb
  · decide
  · rcases mem_encode hb with ⟨-, hset⟩ | ⟨c, -, -, hescape⟩
    · exact hset
    · exact (mem_escape hescape).1

/-- What `resolve` gives for a special scheme is normal. -/
theorem isNormal_resolve (text : Bytes) : IsNormal (resolve true text) := by
  obtain ⟨rest, hrest⟩ := exists_resolve_eq true text
  rw [hrest, resolve_slash]
  -- Backslashes separate here, so a segment that is kept has neither kind of slash.
  have hkept : ∀ s ∈ resolveSegments [] (segments true rest),
      isDotted s = false ∧ ∀ b ∈ s, b ≠ 0x2F ∧ b ≠ 0x5C := by
    refine forall_mem_resolveSegments ⟨by decide, by simp⟩ (by simp) ?_
    intro s hs hplain
    refine ⟨hplain, fun b hb => ?_⟩
    simpa [isSeparator] using (mem_segments hs hb).2
  refine ⟨?_, ?_, ?_⟩
  · cases hsegs : resolveSegments [] (segments true rest) with
    | nil => exact absurd hsegs (resolveSegments_ne_nil (Bytes.splitOn_ne_nil _ _))
    | cons s segs => rfl
  · intro b hb
    obtain ⟨s, hs, hb⟩ := List.mem_flatMap.mp hb
    rcases List.mem_cons.mp hb with rfl | hb
    · exact ⟨by decide, by decide⟩
    · have hclean := clean_encode (hkept s hs).2 b hb
      exact ⟨hclean.1, hclean.2.2⟩
  · intro piece hpiece
    rw [← List.flatMap_map, Bytes.splitOn_flatMap] at hpiece
    · rcases List.mem_cons.mp hpiece with rfl | hpiece
      · decide
      · obtain ⟨s, hs, rfl⟩ := List.mem_map.mp hpiece
        rw [isDotted_encode]
        exact (hkept s hs).1
    · intro piece hpiece hslash
      obtain ⟨s, hs, rfl⟩ := List.mem_map.mp hpiece
      exact (clean_encode (hkept s hs).2 _ hslash).2.1 rfl

/-- Of a path with nothing to escape, `resolve` only changes the segments. -/
theorem resolve_of_clean (h : ∀ b ∈ text, pathSet b = false ∧ b ≠ 0x5C) :
    resolve special (0x2F :: text) =
      (resolveSegments [] (splitOn 0x2F text)).flatMap (0x2F :: ·) := by
  rw [resolve_slash, segments_of_clean fun b hb => (h b hb).2]
  have hkept : ∀ s ∈ resolveSegments [] (splitOn 0x2F text), encode pathSet s = s := by
    refine forall_mem_resolveSegments rfl (by simp) ?_
    intro s hs _
    exact encode_eq_self fun b hb => (h b (Bytes.mem_of_mem_splitOn hs hb).1).1
  rw [List.flatMap_def, List.flatMap_def]
  exact congrArg List.flatten (List.map_congr_left fun s hs => by rw [hkept s hs])

/-- A path with nothing to escape is resolved alike for special schemes and others. -/
theorem resolve_eq_of_clean (hrooted : path.head? = some 0x2F)
    (hclean : ∀ b ∈ path, pathSet b = false ∧ b ≠ 0x5C) (special : Bool) :
    resolve special path = resolve true path := by
  obtain ⟨text, rfl⟩ := List.head?_eq_some_iff.mp hrooted
  have htext : ∀ b ∈ text, pathSet b = false ∧ b ≠ 0x5C :=
    fun b hb => hclean b (List.mem_cons_of_mem _ hb)
  rw [resolve_of_clean htext, resolve_of_clean htext]

/-- A normal path stays as it is. -/
theorem resolve_of_isNormal (special : Bool) (h : IsNormal path) : resolve special path = path := by
  obtain ⟨text, rfl⟩ := List.head?_eq_some_iff.mp h.rooted
  rw [resolve_of_clean fun b hb => h.clean b (List.mem_cons_of_mem _ hb)]
  have hplain : ∀ s ∈ splitOn 0x2F text, isDotted s = false := by
    intro s hs
    exact h.plain s (by rw [splitOn, if_pos rfl]; exact List.mem_cons_of_mem _ hs)
  rw [resolveSegments_of_plain hplain]
  exact Bytes.flatMap_splitOn 0x2F text

/-- A rooted path with nothing to escape is normal if it is as long when it is resolved, its slashes
left aside. -/
theorem isNormal_of_length (special : Bool) (hrooted : path.head? = some 0x2F)
    (hclean : ∀ b ∈ path, pathSet b = false ∧ b ≠ 0x5C)
    (hlength : (path.filter (· != 0x2F)).length =
      ((resolve special path).filter (· != 0x2F)).length) : IsNormal path := by
  refine ⟨hrooted, hclean, ?_⟩
  obtain ⟨text, rfl⟩ := List.head?_eq_some_iff.mp hrooted
  have hkept : ∀ s ∈ resolveSegments [] (splitOn 0x2F text), 0x2F ∉ s :=
    forall_mem_resolveSegments (by simp) (by simp) fun s hs _ => Bytes.not_mem_of_mem_splitOn hs
  rw [resolve_of_clean fun b hb => hclean b (List.mem_cons_of_mem _ hb), ← Bytes.flatten_splitOn,
    ← Bytes.flatten_splitOn, Bytes.splitOn_flatMap hkept, splitOn, if_pos rfl] at hlength
  have hle := length_resolveSegments_le [] (splitOn 0x2F text)
  simp only [List.flatten_cons, List.nil_append, List.flatten_nil, List.length_nil] at hlength hle
  intro piece hpiece
  rw [splitOn, if_pos rfl] at hpiece
  rcases List.mem_cons.mp hpiece with rfl | hpiece
  · decide
  · cases hdotted : isDotted piece with
    | false => rfl
    | true =>
      -- A dot segment is not empty, so resolving would have made the path shorter.
      have hmem : piece ∈ (splitOn 0x2F text).filter isDotted :=
        List.mem_filter.mpr ⟨hpiece, hdotted⟩
      have hempty : ((splitOn 0x2F text).filter isDotted).flatten = [] :=
        List.length_eq_zero_iff.mp (by omega)
      rw [List.flatten_eq_nil_iff.mp hempty piece hmem] at hdotted
      cases hdotted

end Gatehouse.Url
