import Mathlib.Data.List.TakeWhile
import Gatehouse.Net.Address
import Gatehouse.Proofs.Bytes

/-!
# The text of an address

An address is four bytes or eight groups (`IpAddress.WellFormed`), and whatever is read as an address
is. The canonical text of an address is read back as the address (`IpAddress.parse?_render`), so
different addresses have different texts.

The text of an IPv6 address is read in pieces: groups between colons give themselves
(`groups?_colons`), nothing but the `::` of the longest run of zeros is taken for a gap
(`splitGap_colons_append`), and the gap stands for the zeros that are left out (`longestRun_split`).
-/

namespace Gatehouse.Net

variable {cs : List Char} {bytes : List UInt8} {groups : List UInt16} {a b : IpAddress}

/-- Four bytes, or eight groups. -/
def IpAddress.WellFormed : IpAddress → Prop
  | .v4 bytes => bytes.length = 4
  | .v6 groups => groups.length = 8

instance : Decidable a.WellFormed := by
  cases a <;> exact inferInstanceAs (Decidable (_ = _))

/-! ## Numbers -/

/-- A digit is none of the marks between numbers. -/
theorem digitChar_ne (d : Nat) : d.digitChar ≠ '.' ∧ d.digitChar ≠ ':' := by
  by_cases hd : d < 16
  · have hall : ∀ d : Fin 16, Nat.digitChar d ≠ '.' ∧ Nat.digitChar d ≠ ':' := by decide
    exact hall ⟨d, hd⟩
  · rw [Nat.digitChar_eq_star.mpr (Nat.le_of_not_lt hd)]
    decide

theorem not_mem_toDigits {base n : Nat} (hbase : 1 < base) :
    '.' ∉ Nat.toDigits base n ∧ ':' ∉ Nat.toDigits base n := by
  have hne {c : Char} (hc : c ∈ Nat.toDigits base n) : c ≠ '.' ∧ c ≠ ':' := by
    obtain ⟨d, rfl⟩ := Text.exists_digitChar_of_mem_toDigits hbase hc
    exact digitChar_ne d
  exact ⟨fun h => (hne h).1 rfl, fun h => (hne h).2 rfl⟩

theorem octet?_toDigits (b : UInt8) : octet? (Nat.toDigits 10 b.toNat) = some b := by
  rcases Nat.eq_zero_or_pos b.toNat with hzero | hpos
  · obtain rfl : b = 0 := UInt8.toNat_inj.mp hzero
    rfl
  · obtain ⟨c, cs, hdigits, hc⟩ := Text.toDigits_eq_cons hpos
    have hlength : (Nat.toDigits 10 b.toNat).length ≤ 3 :=
      (Nat.length_toDigits_le_iff (by decide) (by decide)).mpr (Nat.lt_trans b.toNat_lt (by decide))
    have hall : (Nat.toDigits 10 b.toNat).all Char.isDigit = true :=
      List.all_eq_true.mpr fun _ => Text.isDigit_of_mem_toDigits
    have hvalue := Text.foldl_toDigits b.toNat
    rw [hdigits] at hlength hall hvalue ⊢
    unfold octet?
    split
    · next hnil => cases hnil
    · next hzero => exact absurd (List.cons.inj hzero).1 hc
    · next hzero => exact absurd (List.cons.inj hzero).1 hc
    · rw [if_pos ⟨hlength, hall⟩, hvalue]
      exact (if_pos (Nat.le_of_lt_succ b.toNat_lt)).trans (by simp)

theorem hexDigit?_digitChar {d : Nat} (hd : d < 16) : hexDigit? d.digitChar = some d := by
  have hall : ∀ d : Fin 16, hexDigit? (Nat.digitChar d) = some d.val := by decide
  exact hall ⟨d, hd⟩

/-- Hexadecimal digits are read as the number that they make. -/
theorem foldlM_hexDigit? (n : Nat) :
    (Nat.toDigits 16 n).foldlM (fun n c => do return n * 16 + (← hexDigit? c)) 0 = some n := by
  induction n using Nat.strongRecOn with
  | _ n ih =>
    rcases Nat.lt_or_ge n 16 with hlt | hge
    · rw [Nat.toDigits_of_lt_base hlt]
      simp [hexDigit?_digitChar hlt]
    · have hlow : n % 16 < 16 := Nat.mod_lt n (by decide)
      rw [Nat.toDigits_of_base_le (by decide) hge, List.foldlM_append, ih (n / 16) (by omega)]
      simp [hexDigit?_digitChar hlow]
      omega

theorem group?_toDigits (g : UInt16) : group? (Nat.toDigits 16 g.toNat) = some g := by
  have hlength : (Nat.toDigits 16 g.toNat).length ≤ 4 :=
    (Nat.length_toDigits_le_iff (by decide) (by decide)).mpr (UInt16.toNat_lt g)
  have hshort : ¬ ((Nat.toDigits 16 g.toNat).isEmpty = true ∨
      4 < (Nat.toDigits 16 g.toNat).length) := by
    rw [List.isEmpty_iff, not_or, Nat.not_lt]
    exact ⟨Nat.toDigits_ne_nil, hlength⟩
  rw [group?, if_neg hshort, foldlM_hexDigit?]
  simp

/-! ## Four bytes -/

theorem toList_renderV4 (bytes : List UInt8) :
    (renderV4 bytes).toList = ['.'].intercalate (bytes.map fun b => Nat.toDigits 10 b.toNat) := by
  have hpoint : ".".toList = ['.'] := rfl
  rw [renderV4, String.toList_intercalate, List.map_map, hpoint]
  congr 2
  funext b
  simp

/-- Numbers are read back from between their points. -/
theorem splitOn_renderV4 (h : bytes ≠ []) :
    List.splitOn '.' (renderV4 bytes).toList = bytes.map fun b => Nat.toDigits 10 b.toNat := by
  rw [toList_renderV4]
  apply List.splitOn_intercalate
  · intro piece hpiece
    obtain ⟨b, -, rfl⟩ := List.mem_map.mp hpiece
    exact (not_mem_toDigits (by decide)).1
  · simpa using h

theorem v4?_renderV4 (h : bytes.length = 4) : v4? (renderV4 bytes).toList = some bytes := by
  obtain ⟨a, b, c, d, rfl⟩ := List.length_eq_four.mp h
  rw [v4?, splitOn_renderV4 (List.cons_ne_nil a _)]
  simp [octet?_toDigits]

theorem v4?_eq_none (h : '.' ∉ cs) : v4? cs = none := by
  rw [v4?, List.splitOn_eq_singleton h]

/-! ## Groups between colons -/

/-- The text of groups between colons. -/
def colons (groups : List UInt16) : List Char :=
  [':'].intercalate (groups.map fun g => Nat.toDigits 16 g.toNat)

theorem toList_colons (groups : List UInt16) :
    (":".intercalate (groups.map renderGroup)).toList = colons groups := by
  have hcolon : ":".toList = [':'] := rfl
  rw [colons, String.toList_intercalate, List.map_map, hcolon]
  congr 2
  funext g
  simp [renderGroup]

theorem colons_cons (g : UInt16) (h : groups ≠ []) :
    colons (g :: groups) = Nat.toDigits 16 g.toNat ++ ':' :: colons groups := by
  have hmap : groups.map (fun g => Nat.toDigits 16 g.toNat) ≠ [] := by simpa using h
  unfold colons
  rw [List.map_cons, List.intercalate_cons_of_ne_nil hmap]
  simp

theorem colons_singleton (g : UInt16) : colons [g] = Nat.toDigits 16 g.toNat := by
  simp [colons]

/-- The text of groups begins with a digit. -/
theorem colons_eq_cons (g : UInt16) (groups : List UInt16) :
    ∃ c cs, colons (g :: groups) = c :: cs ∧ c ≠ ':' := by
  obtain ⟨c, cs, hcs⟩ := List.exists_cons_of_ne_nil (Nat.toDigits_ne_nil (n := g.toNat) (b := 16))
  have hc : c ≠ ':' := by
    rintro rfl
    exact (not_mem_toDigits (n := g.toNat) (by decide)).2 (hcs ▸ List.mem_cons_self)
  by_cases h : groups = []
  · exact ⟨c, cs, by rw [h, colons_singleton, hcs], hc⟩
  · exact ⟨c, cs ++ ':' :: colons groups, by rw [colons_cons g h, hcs, List.cons_append], hc⟩

theorem point_not_mem_colons (groups : List UInt16) : '.' ∉ colons groups := by
  have hne : ∀ c ∈ colons groups, c ≠ '.' := by
    refine (forall_mem_intercalate (by simp)).mpr ?_
    rintro _ hpiece c hc rfl
    obtain ⟨g, -, rfl⟩ := List.mem_map.mp hpiece
    exact (not_mem_toDigits (by decide)).1 hc
  exact fun h => hne '.' h rfl

theorem splitOn_colons (h : groups ≠ []) :
    List.splitOn ':' (colons groups) = groups.map fun g => Nat.toDigits 16 g.toNat := by
  apply List.splitOn_intercalate
  · intro piece hpiece
    obtain ⟨g, -, rfl⟩ := List.mem_map.mp hpiece
    exact (not_mem_toDigits (by decide)).2
  · simpa using h

/-- Groups are read back from their digits. -/
theorem groups?_map (groups : List UInt16) :
    groups? (groups.map fun g => Nat.toDigits 16 g.toNat) = some groups := by
  induction groups with
  | nil => rfl
  | cons g groups ih =>
    cases groups with
    | nil =>
      have hnone : v4? (Nat.toDigits 16 g.toNat) = none :=
        v4?_eq_none (not_mem_toDigits (by decide)).1
      simp [groups?, hnone, group?_toDigits]
    | cons next groups =>
      rw [List.map_cons] at ih ⊢
      rw [List.map_cons, groups?, ih, group?_toDigits]
      · rfl
      · nofun

theorem side?_colons (groups : List UInt16) : side? (colons groups) = some groups := by
  cases groups with
  | nil => rfl
  | cons g groups =>
    obtain ⟨c, cs, hcs, -⟩ := colons_eq_cons g groups
    have hne : (colons (g :: groups)).isEmpty = false := by
      rw [hcs]
      rfl
    rw [side?, hne, splitOn_colons (List.cons_ne_nil g groups), groups?_map]
    rfl

/-! ## The gap -/

theorem splitGap_cons {c d : Char} (h : c ≠ ':' ∨ d ≠ ':') (rest : List Char) :
    splitGap (c :: d :: rest) =
      (splitGap (d :: rest)).map fun (before, after) => (c :: before, after) := by
  rw [splitGap]
  rintro rest rfl hrest
  rw [List.cons.injEq] at hrest
  exact h.elim (· rfl) (· hrest.1)

/-- No gap begins in a number. -/
theorem splitGap_append {piece : List Char} (h : ':' ∉ piece) (rest : List Char) :
    splitGap (piece ++ rest) =
      (splitGap rest).map fun (before, after) => (piece ++ before, after) := by
  induction piece with
  | nil => simp
  | cons c piece ih =>
    rw [List.mem_cons, not_or] at h
    have hcons : splitGap (c :: (piece ++ rest)) =
        (splitGap (piece ++ rest)).map fun (before, after) => (c :: before, after) := by
      cases piece ++ rest with
      | nil => simp [splitGap]
      | cons d tail => exact splitGap_cons (.inl (Ne.symm h.1)) tail
    rw [List.cons_append, hcons, ih h.2, Option.map_map]
    rfl

/-- No gap begins between numbers that have a single colon between each two. -/
theorem splitGap_colons_append (groups : List UInt16) (rest : List Char) :
    splitGap (colons groups ++ rest) =
      (splitGap rest).map fun (before, after) => (colons groups ++ before, after) := by
  induction groups with
  | nil => simp [colons]
  | cons g groups ih =>
    have hg : ':' ∉ Nat.toDigits 16 g.toNat := (not_mem_toDigits (by decide)).2
    cases groups with
    | nil =>
      rw [colons_singleton]
      exact splitGap_append hg rest
    | cons next groups =>
      obtain ⟨c, cs, hcs, hc⟩ := colons_eq_cons next groups
      have hcolon : splitGap (':' :: (colons (next :: groups) ++ rest)) =
          (splitGap (colons (next :: groups) ++ rest)).map
            fun (before, after) => (':' :: before, after) := by
        rw [hcs, List.cons_append]
        exact splitGap_cons (.inr hc) _
      rw [colons_cons g (List.cons_ne_nil next groups), List.append_assoc, splitGap_append hg,
        List.cons_append, hcolon, ih, Option.map_map, Option.map_map]
      congr 1
      funext p
      simp

theorem splitGap_colons (groups : List UInt16) : splitGap (colons groups) = none := by
  have h := splitGap_colons_append groups []
  rwa [List.append_nil] at h

/-! ## The longest run of zeros -/

theorem eq_zeroRun_append (groups : List UInt16) :
    groups = List.replicate (zeroRun groups) 0 ++ groups.dropWhile (· == 0) := by
  have hzeros : groups.takeWhile (· == 0) = List.replicate (zeroRun groups) 0 := by
    rw [List.eq_replicate_iff]
    refine ⟨rfl, fun g hg => ?_⟩
    simpa using List.mem_takeWhile_imp hg
  rw [← hzeros, List.takeWhile_append_dropWhile]

/-- A run that is found is a run of zeros between what stands before and after it. -/
theorem longestRun_split {position start length : Nat}
    (h : longestRun position groups = (start, length)) (hpos : 0 < length) :
    ∃ before after, groups = before ++ (List.replicate length 0 ++ after) ∧
      start = position + before.length := by
  induction groups generalizing position with
  | nil =>
    cases h
    cases hpos
  | cons g groups ih =>
    rw [longestRun] at h
    split at h
    · cases h
      exact ⟨[], _, eq_zeroRun_append (g :: groups), rfl⟩
    · obtain ⟨before, after, rfl, rfl⟩ := ih h
      exact ⟨g :: before, after, rfl, by rw [List.length_cons]; omega⟩

/-- Groups are written in full, or with a gap for two zeros or more. -/
theorem toList_renderV6 (groups : List UInt16) :
    (renderV6 groups).toList = colons groups ∨
      ∃ before length after, groups = before ++ (List.replicate length 0 ++ after) ∧ 2 ≤ length ∧
        (renderV6 groups).toList = colons before ++ ':' :: ':' :: colons after := by
  obtain ⟨start, length, hrun⟩ : ∃ start length, longestRun 0 groups = (start, length) := ⟨_, _, rfl⟩
  rw [renderV6, hrun]
  by_cases hlength : length < 2
  · exact .inl (by simp only [if_pos hlength, toList_colons])
  · obtain ⟨before, after, hsplit, hstart⟩ := longestRun_split hrun (by omega)
    have htake : groups.take start = before := by
      rw [hsplit, hstart, Nat.zero_add, List.take_left]
    have hdrop : groups.drop (start + length) = after := by
      rw [hsplit, hstart, Nat.zero_add, ← List.drop_drop, List.drop_left]
      exact List.drop_left' List.length_replicate
    refine .inr ⟨before, length, after, hsplit, by omega, ?_⟩
    simp only [if_neg hlength, htake, hdrop, String.toList_append, toList_colons]
    simp

/-! ## Eight groups -/

theorem point_not_mem_renderV6 (groups : List UInt16) : '.' ∉ (renderV6 groups).toList := by
  rcases toList_renderV6 groups with h | ⟨before, length, after, -, -, h⟩
  · rw [h]
    exact point_not_mem_colons groups
  · rw [h]
    simp [point_not_mem_colons]

theorem v6?_renderV6 (h : groups.length = 8) : v6? (renderV6 groups).toList = some groups := by
  rcases toList_renderV6 groups with htext | ⟨before, length, after, hsplit, hlength, htext⟩
  · have hne : groups ≠ [] := by
      rintro rfl
      cases h
    rw [htext, v6?, splitGap_colons, splitOn_colons hne, groups?_map]
    simp [h]
  · -- the gap stands for as many groups as are missing
    have hcount : before.length + (length + after.length) = 8 := by
      rw [← h, hsplit, List.length_append, List.length_append, List.length_replicate]
    have hzeros : 8 - before.length - after.length = length := by omega
    have hgap : splitGap (colons before ++ ':' :: ':' :: colons after) =
        some (colons before, colons after) := by
      rw [splitGap_colons_append, splitGap]
      simp
    have hallowed : before.length + after.length ≤ 7 ∧ (!(colons before).contains '.') = true := by
      refine ⟨by omega, ?_⟩
      simp [point_not_mem_colons]
    rw [htext, v6?, hgap]
    simp only [side?_colons, Option.bind_eq_bind, Option.bind_some, if_pos hallowed, hzeros]
    rw [hsplit, List.append_assoc]
    rfl

/-! ## Groups in front of an IPv4 address -/

theorem colon_not_mem_renderV4 (bytes : List UInt8) : ':' ∉ (renderV4 bytes).toList := by
  have hne : ∀ c ∈ (renderV4 bytes).toList, c ≠ ':' := by
    rw [toList_renderV4]
    refine (forall_mem_intercalate (by simp)).mpr ?_
    rintro _ hpiece c hc rfl
    obtain ⟨b, -, rfl⟩ := List.mem_map.mp hpiece
    exact (not_mem_toDigits (by decide)).2 hc
  exact fun h => hne ':' h rfl

/-- Two bytes make a group. -/
theorem group_of_bytes (g : UInt16) :
    (g / 256).toUInt8.toUInt16 * 256 + (g % 256).toUInt8.toUInt16 = g := by
  rw [← UInt16.toNat_inj]
  have := UInt16.toNat_lt g
  simp
  omega

/-- What begins with a colon is no IPv4 address. -/
theorem v4?_colon (cs : List Char) : v4? (':' :: cs) = none := by
  have hcolon (piece : List Char) : octet? (':' :: piece) = none := by
    simp [octet?]
  rw [v4?, List.splitOn_cons_eq_if_modifyHead, if_neg (by decide)]
  cases List.splitOn '.' cs with
  | nil => rfl
  | cons piece pieces =>
    rw [List.modifyHead_cons]
    split
    · next hpieces =>
      cases hpieces
      rw [List.mapM_cons, hcolon]
      rfl
    · rfl

/-- The text of an IPv4 address that an IPv6 address maps, behind the groups that say so. -/
theorem v6?_mapped {a b c d : UInt8} :
    v6? ("::ffff:" ++ renderV4 [a, b, c, d]).toList =
      some [0, 0, 0, 0, 0, 0xFFFF, a.toUInt16 * 256 + b.toUInt16, c.toUInt16 * 256 + d.toUInt16] := by
  have htext : ("::ffff:" ++ renderV4 [a, b, c, d]).toList =
      ':' :: ':' :: ("ffff".toList ++ ':' :: (renderV4 [a, b, c, d]).toList) := by
    simp
  have hpieces : List.splitOn ':' ("ffff".toList ++ ':' :: (renderV4 [a, b, c, d]).toList) =
      ["ffff".toList, (renderV4 [a, b, c, d]).toList] := by
    rw [List.splitOn_append_cons_self_of_not_mem (by decide),
      List.splitOn_eq_singleton (colon_not_mem_renderV4 _)]
  have hgroup : group? "ffff".toList = some 0xFFFF := by decide
  have hside : side? ("ffff".toList ++ ':' :: (renderV4 [a, b, c, d]).toList) =
      some [0xFFFF, a.toUInt16 * 256 + b.toUInt16, c.toUInt16 * 256 + d.toUInt16] := by
    rw [side?, hpieces, groups?, groups?, hgroup, v4?_renderV4 rfl]
    · rfl
    · nofun
  have hnone : side? [] = some [] := rfl
  rw [htext, v6?, splitGap]
  simp only [hnone, hside, Option.bind_eq_bind, Option.bind_some]
  rfl

/-! ## Addresses -/

theorem length_of_v4? (h : v4? cs = some bytes) : bytes.length = 4 := by
  unfold v4? at h
  split at h
  · simp only [List.mapM_cons, List.mapM_nil, Option.pure_def, Option.bind_eq_bind,
      Option.bind_eq_some_iff, Option.some.injEq] at h
    obtain ⟨_, -, _, ⟨_, -, _, ⟨_, -, _, ⟨_, -, _, rfl, rfl⟩, rfl⟩, rfl⟩, rfl⟩ := h
    rfl
  · cases h

theorem length_of_v6? (h : v6? cs = some groups) : groups.length = 8 := by
  unfold v6? at h
  split at h
  · simp only [Option.bind_eq_bind, Option.bind_eq_some_iff] at h
    obtain ⟨front, -, back, -, h⟩ := h
    split at h
    · next hfits =>
      cases h
      rw [List.length_append, List.length_append, List.length_replicate]
      omega
    · cases h
  · simp only [Option.bind_eq_bind, Option.bind_eq_some_iff] at h
    obtain ⟨all, -, h⟩ := h
    split at h
    · next hall =>
      cases h
      exact hall
    · cases h

/-- What is read as an address has four bytes or eight groups. -/
theorem IpAddress.wellFormed_of_parse? (h : parse? cs = some a) : a.WellFormed := by
  unfold parse? at h
  split at h
  · next hbytes =>
    cases h
    exact length_of_v4? hbytes
  · obtain ⟨groups, hgroups, rfl⟩ := Option.map_eq_some_iff.mp h
    exact length_of_v6? hgroups

/-- **An address is read back from its text.** -/
theorem IpAddress.parse?_render (h : a.WellFormed) : parse? a.render.toList = some a := by
  unfold render
  split
  · rw [parse?, v4?_renderV4 h]
  · next x y =>
    have hv4 : v4? ("::ffff:" ++ renderV4 [(x / 256).toUInt8, (x % 256).toUInt8,
        (y / 256).toUInt8, (y % 256).toUInt8]).toList = none := by
      rw [String.toList_append]
      exact v4?_colon _
    rw [parse?, hv4, v6?_mapped, group_of_bytes, group_of_bytes]
    rfl
  · rw [parse?, v4?_eq_none (point_not_mem_renderV6 _), v6?_renderV6 h]
    rfl

/-- Different addresses have different texts. -/
theorem IpAddress.render_inj (ha : a.WellFormed) (hb : b.WellFormed) :
    a.render = b.render ↔ a = b := by
  constructor
  · intro h
    have hread := parse?_render ha
    rw [h, parse?_render hb] at hread
    exact (Option.some.inj hread).symm
  · rintro rfl
    rfl

theorem IpAddress.render_ne_empty (h : a.WellFormed) : a.render ≠ "" := by
  intro hempty
  have hread := parse?_render h
  rw [hempty] at hread
  cases hread

/-! ## Addresses that stand for others -/

namespace IpAddress

/-- An IPv6 address that stands for an IPv4 address: one that maps it, or the loopback. -/
inductive StandsFor : IpAddress → IpAddress → Prop
  | mapped (a b c d : UInt8) :
    StandsFor (.v6 [0, 0, 0, 0, 0, 0xFFFF, a.toUInt16 * 256 + b.toUInt16,
      c.toUInt16 * 256 + d.toUInt16]) (.v4 [a, b, c, d])
  | loopback : StandsFor (.v6 [0, 0, 0, 0, 0, 0, 0, 1]) (.v4 [127, 0, 0, 1])

/-- Which address is meant: the one that an address stands for, or else itself. -/
def Means (a b : IpAddress) : Prop := StandsFor a b ∨ (a = b ∧ ∀ c, ¬ StandsFor a c)

theorem bytes_of_group (a b : UInt8) :
    ((a.toUInt16 * 256 + b.toUInt16) / 256).toUInt8 = a ∧
      ((a.toUInt16 * 256 + b.toUInt16) % 256).toUInt8 = b := by
  rw [← UInt8.toNat_inj, ← UInt8.toNat_inj]
  have ha := UInt8.toNat_lt a
  have hb := UInt8.toNat_lt b
  simp
  omega

theorem standsFor_mapped (x y : UInt16) :
    StandsFor (.v6 [0, 0, 0, 0, 0, 0xFFFF, x, y]) (.v4
      [(x / 256).toUInt8, (x % 256).toUInt8, (y / 256).toUInt8, (y % 256).toUInt8]) := by
  have h := StandsFor.mapped (x / 256).toUInt8 (x % 256).toUInt8 (y / 256).toUInt8 (y % 256).toUInt8
  rwa [group_of_bytes, group_of_bytes] at h

theorem canonical_mapped (x y : UInt16) :
    canonical (.v6 [0, 0, 0, 0, 0, 0xFFFF, x, y]) = .v4
      [(x / 256).toUInt8, (x % 256).toUInt8, (y / 256).toUInt8, (y % 256).toUInt8] :=
  rfl

theorem means_canonical (a : IpAddress) : a.Means a.canonical := by
  unfold canonical
  split
  · exact .inl (standsFor_mapped _ _)
  · next hmapped =>
    split
    · next hloopback =>
      subst hloopback
      exact .inl .loopback
    · next hloopback =>
      refine .inr ⟨rfl, ?_⟩
      rintro _ (⟨x, y, z, w⟩ | _)
      · exact hmapped _ _ rfl
      · exact hloopback rfl

/-- An address is replaced by the one that it stands for, if there is one. -/
theorem canonical_eq_iff : a.canonical = b ↔ a.Means b := by
  constructor
  · rintro rfl
    exact means_canonical a
  · rintro ((⟨x, y, z, w⟩ | _) | ⟨rfl, hnone⟩)
    · simp only [canonical_mapped, bytes_of_group]
    · rfl
    · rcases means_canonical a with hstands | ⟨heq, -⟩
      · exact absurd hstands (hnone _)
      · exact heq.symm

theorem canonical_eq_canonical_iff : a.canonical = b.canonical ↔ ∃ c, a.Means c ∧ b.Means c := by
  simp only [← canonical_eq_iff, exists_eq_left']
  exact eq_comm

theorem WellFormed.canonical (h : a.WellFormed) : a.canonical.WellFormed := by
  rcases means_canonical a with hstands | ⟨heq, -⟩
  · generalize a.canonical = b at hstands
    cases hstands <;> rfl
  · rwa [← heq]

end IpAddress

/-- The address of an endpoint that is read has four bytes or eight groups. -/
theorem Endpoint.wellFormed_of_parse? {e : Endpoint} (h : Endpoint.parse? cs = some e) :
    e.address.WellFormed := by
  unfold parse? at h
  split at h
  · simp only [Option.bind_eq_bind, Option.bind_eq_some_iff] at h
    obtain ⟨groups, hgroups, h⟩ := h
    split at h
    · obtain ⟨port, -, h⟩ := Option.bind_eq_some_iff.mp h
      cases h
      exact length_of_v6? hgroups
    · cases h
  · simp only [Option.bind_eq_bind, Option.bind_eq_some_iff] at h
    obtain ⟨bytes, hbytes, h⟩ := h
    split at h
    · obtain ⟨port, -, h⟩ := Option.bind_eq_some_iff.mp h
      cases h
      exact length_of_v4? hbytes
    · cases h

end Gatehouse.Net
