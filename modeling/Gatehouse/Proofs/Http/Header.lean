import Gatehouse.Http.Header

/-!
# The values of a name

What each change of header fields does to the values of a name. Headers of one hop lose the values of
the names that `connection` lists and of those that are never passed on, and nothing else.
-/

namespace Gatehouse.Http

variable {hs hs' : Headers} {name other : HeaderName} {value : Bytes}

namespace Headers

theorem values_append (hs : Headers) (name other : HeaderName) (value : Bytes) :
    (hs.append other value).values name =
      hs.values name ++ if other = name then [value] else [] := by
  rw [append, values, values, List.filterMap_append]
  by_cases h : other = name <;> simp [h]

theorem values_remove (hs : Headers) (name other : HeaderName) :
    (hs.remove other).values name = if other = name then [] else hs.values name := by
  induction hs with
  | nil => simp [remove, values]
  | cons f hs ih =>
    simp only [remove, values, List.filter_cons, List.filterMap_cons] at ih ⊢
    by_cases hother : f.name = other
    · by_cases hname : f.name = name
      · subst hother hname
        simp
      · simpa [hother, hname, hother ▸ hname] using ih
    · by_cases hname : f.name = name
      · subst hname
        simpa [hother, Ne.symm hother] using ih
      · simpa [hother, hname] using ih

@[simp] theorem values_remove_of_ne (h : other ≠ name) :
    (hs.remove other).values name = hs.values name := by
  rw [values_remove, if_neg h]

@[simp] theorem values_set_self (hs : Headers) (name : HeaderName) (value : Bytes) :
    (hs.set name value).values name = [value] := by
  rw [set, values_append, values_remove, if_pos rfl, if_pos rfl, List.nil_append]

@[simp] theorem values_set_of_ne (h : other ≠ name) :
    (hs.set other value).values name = hs.values name := by
  rw [set, values_append, if_neg h, List.append_nil, values_remove_of_ne h]

/-- Removing some names takes the values of each of them, and of no other. -/
theorem values_foldl_remove (names : List HeaderName) (hs : Headers) (name : HeaderName) :
    (names.foldl remove hs).values name = if name ∈ names then [] else hs.values name := by
  induction names generalizing hs with
  | nil => simp
  | cons other names ih =>
    rw [List.foldl_cons, ih, values_remove]
    by_cases hname : name ∈ names
    · rw [if_pos hname, if_pos (List.mem_cons_of_mem _ hname)]
    · rw [if_neg hname]
      by_cases hother : other = name
      · rw [if_pos hother, if_pos (hother ▸ List.mem_cons_self)]
      · have hmem : name ∉ other :: names := by
          rw [List.mem_cons, not_or]
          exact ⟨Ne.symm hother, hname⟩
        rw [if_neg hother, if_neg hmem]

end Headers

/-- Which names are listed is decided by the values of `connection` alone. -/
theorem listedNames_congr (h : hs.values connection = hs'.values connection) :
    listedNames hs = listedNames hs' := by
  rw [listedNames, listedNames, h]

theorem values_stripHopByHop (hs : Headers) (name : HeaderName) :
    (stripHopByHop hs).values name =
      if name ∈ listedNames hs ∨ name ∈ hopByHop then [] else hs.values name := by
  rw [stripHopByHop, Headers.values_foldl_remove]
  simp only [List.mem_append]

end Gatehouse.Http
