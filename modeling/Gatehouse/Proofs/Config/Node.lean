import Gatehouse.Config.Node
import Gatehouse.Proofs.Json.Document
import Gatehouse.Proofs.Lookup

/-!
# The tree of a value

The document of a value has the tree of the value where the value is not nested too deeply
(`ofDocument_document`), and a tree of a legal value is readable and gives the value back
(`isReadable_ofValue`, `toValue_ofValue`). The typed readers then look at values: `structure?_ofValue`
and `get_given` say what is given of a structure that was written with some of its fields.
-/

namespace Gatehouse.Config.Node

open Json (Value Fields)
open Json.Value (ItemsExact FieldsExact ItemsLegal FieldsLegal ItemsSorted FieldsSorted)

/-! ## Trees and documents -/

mutual

/-- The document of a value has the tree of the value. -/
theorem ofDocument_document : ∀ {v : Value} {limit : Nat}, v.Exact → v.depth ≤ limit →
    ofDocument limit v.document = ofValue v
  | .null, _, _, _ => by simp [Json.Value.document, ofDocument, ofValue]
  | .bool b, _, _, _ => by simp [Json.Value.document, ofDocument, ofValue]
  | .number (.int n), _, h, _ => by
    simp [Json.Value.document, ofDocument, ofValue, Json.toNumber?_ofInt h]
  | .string s, _, _, _ => by simp [Json.Value.document, ofDocument, ofValue]
  | .array items, 0, _, hd => by simp [Json.Value.depth] at hd
  | .array items, limit + 1, h, hd => by
    rw [Json.Value.depth] at hd
    rw [Json.Value.document, ofDocument, ofValue,
      ofDocuments_itemDocuments h (Nat.le_of_succ_le_succ hd)]
  | .object fields, 0, _, hd => by simp [Json.Value.depth] at hd
  | .object fields, limit + 1, h, hd => by
    rw [Json.Value.depth] at hd
    rw [Json.Value.document, ofDocument, ofValue,
      ofFields_fieldDocuments h (Nat.le_of_succ_le_succ hd)]

theorem ofDocuments_itemDocuments : ∀ {items : List Value} {limit : Nat}, ItemsExact items →
    Json.Value.itemsDepth items ≤ limit →
    ofDocuments limit (Json.Value.itemDocuments items) = ofValues items
  | [], _, _, _ => by simp [Json.Value.itemDocuments, ofDocuments, ofValues]
  | v :: vs, limit, h, hd => by
    rw [Json.Value.itemsDepth, Nat.max_le] at hd
    rw [Json.Value.itemDocuments, ofDocuments, ofValues, ofDocument_document h.1 hd.1,
      ofDocuments_itemDocuments h.2 hd.2]

theorem ofFields_fieldDocuments : ∀ {fields : Fields} {limit : Nat}, FieldsExact fields →
    Json.Value.fieldsDepth fields ≤ limit →
    ofFields limit (Json.Value.fieldDocuments fields) = ofValueFields fields
  | [], _, _, _ => by simp [Json.Value.fieldDocuments, ofFields, ofValueFields]
  | (key, v) :: rest, limit, h, hd => by
    rw [Json.Value.fieldsDepth, Nat.max_le] at hd
    rw [Json.Value.fieldDocuments, ofFields, ofValueFields, ofDocument_document h.1 hd.1,
      ofFields_fieldDocuments h.2 hd.2]

end

/-! ## Trees and values -/

/-- The scalar of a number that a value can hold stands for the number. -/
theorem valueOfScalar_number {x : Json.Number} (h : x.Legal) :
    valueOfScalar (scalarOfNumber x) = .ok (.number x) := by
  cases x with
  | int n => exact if_pos h
  | double d => exact congrArg Except.ok (if_pos h)

mutual

/-- The tree of a value gives the value back. -/
theorem toValue_ofValue : ∀ {v : Value}, v.Legal → v.Sorted → toValue (ofValue v) = .ok v
  | .null, _, _ => by simp [ofValue, toValue, valueOfScalar]
  | .bool b, _, _ => by simp [ofValue, toValue, valueOfScalar]
  | .number x, h, _ => by rw [ofValue, toValue, valueOfScalar_number h]
  | .string s, _, _ => by simp [ofValue, ofText, toValue, valueOfScalar]
  | .array items, h, hs => by
    rw [ofValue, toValue, toValues_ofValues h hs]
    rfl
  | .object fields, h, hs => by
    rw [ofValue, toValue, toFields_ofValueFields [] hs.1 h hs.2]
    rfl

theorem toValues_ofValues : ∀ {items : List Value}, ItemsLegal items → ItemsSorted items →
    toValues (ofValues items) = .ok items
  | [], _, _ => by simp [ofValues, toValues]
  | v :: vs, h, hs => by
    rw [ofValues, toValues, toValue_ofValue h.1 hs.1, toValues_ofValues h.2 hs.2]
    rfl

theorem toFields_ofValueFields : ∀ {fields : Fields} (before : Fields),
    ((before ++ fields).map Prod.fst).Pairwise (· < ·) → FieldsLegal fields →
    FieldsSorted fields → toFields before (ofValueFields fields) = .ok (before ++ fields)
  | [], before, _, _, _ => by simp [ofValueFields, toFields]
  | (key, v) :: rest, before, hkeys, h, hs => by
    have hlast := Json.Value.insert_last v (Json.Value.lt_of_sorted hkeys)
    have hrest := toFields_ofValueFields (before ++ [(key, v)]) (by simpa using hkeys) h.2 hs.2
    rw [ofValueFields, toFields, toValue_ofValue h.1 hs.1]
    change toFields (Fields.insert key v before) (ofValueFields rest) = _
    rw [hlast, hrest, List.append_assoc]
    rfl

end

mutual

/-- A reader without a type gets through the tree of a legal value. -/
theorem isReadable_ofValue : ∀ {v : Value}, v.Legal → isReadable (ofValue v) = true
  | .null, _ => rfl
  | .bool b, _ => rfl
  | .number x, h => by
    rw [ofValue, isReadable, valueOfScalar_number h]
    rfl
  | .string s, _ => rfl
  | .array items, h => by rw [ofValue, isReadable, areReadable_ofValues h]
  | .object fields, h => by rw [ofValue, isReadable, fieldsAreReadable_ofValueFields h]

theorem areReadable_ofValues : ∀ {items : List Value}, ItemsLegal items →
    areReadable (ofValues items) = true
  | [], _ => rfl
  | v :: vs, h => by
    rw [ofValues, areReadable, isReadable_ofValue h.1, areReadable_ofValues h.2, Bool.and_self]

theorem fieldsAreReadable_ofValueFields : ∀ {fields : Fields}, FieldsLegal fields →
    fieldsAreReadable (ofValueFields fields) = true
  | [], _ => rfl
  | (key, v) :: rest, h => by
    rw [ofValueFields, fieldsAreReadable, isReadable_ofValue h.1,
      fieldsAreReadable_ofValueFields h.2]
    rfl

end

/-! ## Written structures -/

/-- The fields of a written structure, as they are given to its reader. -/
def written (fields : Fields) : Given := fields.map fun (key, v) => (key, ofValue v)

theorem lookup_written (fields : Fields) (name : String) :
    (written fields).lookup name = (fields.lookup name).map ofValue :=
  lookup_map (fun _ => ofValue) fields name

/-- What is given of fields none of which is written twice are those with known names. -/
theorem known_ofValueFields (names : List String) {fields : Fields}
    (hnodup : (fields.map Prod.fst).Nodup) :
    known names (ofValueFields fields) = .ok (written (fields.filter fun field => field.1 ∈ names)) := by
  induction fields with
  | nil => rfl
  | cons field fields ih =>
    obtain ⟨key, v⟩ := field
    rw [List.map_cons, List.nodup_cons] at hnodup
    have hrest := ih hnodup.2
    rw [ofValueFields, known, hrest]
    by_cases hkey : key ∈ names
    · have habsent : key ∉ (fields.filter fun field => field.1 ∈ names).map Prod.fst :=
        fun hmem => hnodup.1 ((List.filter_sublist.map Prod.fst).subset hmem)
      have hfresh : (written (fields.filter fun field => field.1 ∈ names)).lookup key = none := by
        rw [lookup_written, lookup_eq_none.mpr habsent, Option.map_none]
      change (if key ∈ names then
        if ((written (fields.filter fun field => field.1 ∈ names)).lookup key).isSome then _ else _
        else _) = _
      rw [if_pos hkey, hfresh, List.filter_cons_of_pos (by simpa using hkey)]
      rfl
    · change (if key ∈ names then _ else _) = _
      rw [if_neg hkey, List.filter_cons_of_neg (by simpa using hkey)]
      rfl

/-- A structure that was written with some of its fields in their order. -/
theorem structure?_ofValue {names : List String} {fields : Fields}
    (h : (fields.map Prod.fst).Sublist names) (hnames : names.Nodup) :
    (ofValue (.object fields)).structure? names = .ok (written fields) := by
  have hknown : ∀ field ∈ fields, decide (field.1 ∈ names) = true := fun field hfield =>
    decide_eq_true (h.subset (List.mem_map_of_mem hfield))
  rw [ofValue, structure?, known_ofValueFields names (hnames.sublist h), List.filter_eq_self.mpr hknown]

/-- What is read of a field that may have been written. -/
def readField {α : Type} (read : Node → Except Fault α) (default : Except Fault α) :
    Option Value → Except Fault α
  | some v => read (ofValue v)
  | none => default

@[simp]
theorem get_written {α : Type} (fields : Fields) (name : String) (read : Node → Except Fault α)
    (default : α) :
    (written fields).get name read default = readField read (.ok default) (fields.lookup name) := by
  rw [Given.get, lookup_written]
  cases fields.lookup name <;> rfl

@[simp]
theorem require_written {α : Type} (fields : Fields) (name : String)
    (read : Node → Except Fault α) : (written fields).require name read =
      readField read (.error (.missing name)) (fields.lookup name) := by
  rw [Given.require, lookup_written]
  cases fields.lookup name <;> rfl

@[simp]
theorem readField_some {α : Type} (read : Node → Except Fault α) (default : Except Fault α)
    (v : Value) : readField read default (some v) = read (ofValue v) := rfl

/-- Something other than `null` is not left out. -/
theorem optional_ofValue {α : Type} (read : Node → Except Fault α) {v : Value} (h : v ≠ .null) :
    optional read (ofValue v) = (read (ofValue v)).map some := by
  cases v with
  | null => exact absurd rfl h
  | number n => cases n <;> rfl
  | _ => rfl

/-- A setting that may be left out is read back where its value is. -/
theorem readField_optional {α : Type} {read : Node → Except Fault α} {write : α → Value}
    (o : Option α) (hnull : ∀ a, write a ≠ .null)
    (hread : ∀ a ∈ o, read (ofValue (write a)) = .ok a) :
    readField (optional read) (.ok none) (o.map write) = .ok o := by
  cases o with
  | none => rfl
  | some a =>
    rw [Option.map_some, readField_some, optional_ofValue read (hnull a), hread a rfl]
    rfl

theorem ofValues_eq_map (vs : List Value) : ofValues vs = vs.map ofValue := by
  induction vs with
  | nil => rfl
  | cons v vs ih => rw [ofValues, ih, List.map_cons]

/-- A list is read back where its items are. -/
theorem list_ofValue {α : Type} {read : Node → Except Fault α} {write : α → Value} {as : List α}
    (h : ∀ a ∈ as, read (ofValue (write a)) = .ok a) :
    list read (ofValue (.array (as.map write))) = .ok as := by
  rw [ofValue, list, ofValues_eq_map, List.map_map]
  induction as with
  | nil => rfl
  | cons a as ih =>
    have hrest := ih fun x hx => h x (List.mem_cons_of_mem a hx)
    rw [List.map_cons, List.mapM_cons, Function.comp_apply, h a List.mem_cons_self, hrest]
    rfl

/-! ## Written settings -/

@[simp]
theorem text_ofValue (s : String) : text (ofValue (.string s)) = .ok s := rfl

@[simp]
theorem bool_ofValue (b : Bool) : bool (ofValue (.bool b)) = .ok b := rfl

theorem natBelow_ofValue {n limit : Nat} (h : n < limit) :
    natBelow limit (ofValue (.ofNat n)) = .ok n := by
  have hfits : 0 ≤ (n : Int) ∧ (n : Int) < limit := by omega
  rw [Json.Value.ofNat, ofValue, scalarOfNumber, natBelow, if_pos hfits]
  rfl

end Gatehouse.Config.Node
