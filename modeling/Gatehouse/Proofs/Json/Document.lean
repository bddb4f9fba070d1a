import Gatehouse.Proofs.Json.Token

/-!
# Reading back the text of a value

The reader of documents inverts `Document.tokens` for every document (`value_tokens`), by recursion
over the tree. The text of a value lexes as the tokens of its document (`lexes_chars`), so a written
value is read as that document: `ofText?_chars`.
-/

namespace Gatehouse.Json

/-! ## The tokens of a document -/

namespace Document

mutual

/-- The tokens that spell a document. -/
def tokens : Document → List Token
  | .null => [.null]
  | .bool b => [.bool b]
  | .number n => [.number n]
  | .string s => [.string s]
  | .array items => .mark '[' :: ([.mark ','].intercalate (itemTokens items) ++ [.mark ']'])
  | .object fields =>
    .mark '\x7b' :: ([.mark ','].intercalate (fieldTokens fields) ++ [.mark '\x7d'])

/-- The tokens of each item of an array. -/
def itemTokens : List Document → List (List Token)
  | [] => []
  | x :: xs => x.tokens :: itemTokens xs

/-- The tokens of each field of an object. -/
def fieldTokens : List (Option String × Document) → List (List Token)
  | [] => []
  | (key, x) :: rest => (.string key :: .mark ':' :: x.tokens) :: fieldTokens rest

end

/-- A document does not begin with the end of an array. -/
theorem tokens_eq_cons (x : Document) : ∃ t ts, x.tokens = t :: ts ∧ t ≠ .mark ']' := by
  cases x <;> exact ⟨_, _, by rw [tokens], by simp⟩

theorem itemTokens_eq_cons (x : Document) (xs : List Document) :
    ∃ t ts, [Token.mark ','].intercalate (itemTokens (x :: xs)) = t :: ts ∧ t ≠ .mark ']' := by
  obtain ⟨t, ts, hts, ht⟩ := x.tokens_eq_cons
  cases xs with
  | nil => exact ⟨t, ts, by simp [itemTokens, hts], ht⟩
  | cons y ys =>
    rw [itemTokens, itemTokens, List.intercalate_cons_cons, hts]
    exact ⟨t, _, rfl, ht⟩

theorem fieldTokens_eq_cons (key : Option String) (x : Document)
    (xs : List (Option String × Document)) :
    ∃ ts, [Token.mark ','].intercalate (fieldTokens ((key, x) :: xs)) = .string key :: ts := by
  cases xs with
  | nil => exact ⟨.mark ':' :: x.tokens, by simp [fieldTokens]⟩
  | cons y ys =>
    rw [fieldTokens, fieldTokens, List.intercalate_cons_cons]
    exact ⟨_, rfl⟩

/-- An array that does not end at once has items. -/
theorem value_array {t : Token} (ht : t ≠ .mark ']') (ts : List Token) (fuel : Nat) :
    value (fuel + 1) (.mark '[' :: t :: ts) =
      (items fuel (t :: ts)).map fun (xs, left) => (.array xs, left) := by
  rw [value]
  intro _ h
  exact absurd (List.cons.inj h).1 ht

/-- An object that begins with a key has fields. -/
theorem value_object (key : Option String) (ts : List Token) (fuel : Nat) :
    value (fuel + 1) (.mark '\x7b' :: .string key :: ts) =
      (fields fuel (.string key :: ts)).map fun (xs, left) => (.object xs, left) := by
  rw [value]
  intro _ h
  cases h

mutual

/-- A document is read from its tokens, whatever follows them. -/
theorem value_tokens : ∀ (x : Document) (fuel : Nat) (rest : List Token),
    x.tokens.length ≤ fuel → value fuel (x.tokens ++ rest) = some (x, rest)
  | .null, fuel, rest, _ => by simp [tokens, value]
  | .bool b, fuel, rest, _ => by simp [tokens, value]
  | .number n, fuel, rest, _ => by simp [tokens, value]
  | .string s, fuel, rest, _ => by simp [tokens, value]
  | .array [], fuel, rest, _ => by simp [tokens, itemTokens, value]
  | .array (x :: xs), 0, rest, h => by simp [tokens] at h
  | .array (x :: xs), fuel + 1, rest, h => by
    have hfuel : ([.mark ','].intercalate (itemTokens (x :: xs))).length < fuel := by
      simp only [tokens, List.length_cons, List.length_append, List.length_nil] at h
      omega
    have hitems := items_tokens (x :: xs) (List.cons_ne_nil x xs) fuel rest hfuel
    obtain ⟨t, ts, hts, ht⟩ := itemTokens_eq_cons x xs
    rw [hts, List.cons_append] at hitems
    rw [tokens, hts, List.cons_append, List.append_assoc, List.cons_append, List.singleton_append,
      value_array ht, hitems, Option.map_some]
  | .object [], fuel, rest, _ => by simp [tokens, fieldTokens, value]
  | .object ((key, x) :: xs), 0, rest, h => by simp [tokens] at h
  | .object ((key, x) :: xs), fuel + 1, rest, h => by
    have hfuel : ([.mark ','].intercalate (fieldTokens ((key, x) :: xs))).length < fuel := by
      simp only [tokens, List.length_cons, List.length_append, List.length_nil] at h
      omega
    have hfields := fields_tokens ((key, x) :: xs) (List.cons_ne_nil _ xs) fuel rest hfuel
    obtain ⟨ts, hts⟩ := fieldTokens_eq_cons key x xs
    rw [hts, List.cons_append] at hfields
    rw [tokens, hts, List.cons_append, List.append_assoc, List.cons_append, List.singleton_append,
      value_object, hfields, Option.map_some]

/-- The items of an array are read up to the end of the array. -/
theorem items_tokens : ∀ (xs : List Document), xs ≠ [] → ∀ (fuel : Nat) (rest : List Token),
    ([.mark ','].intercalate (itemTokens xs)).length < fuel →
    items fuel ([.mark ','].intercalate (itemTokens xs) ++ .mark ']' :: rest) = some (xs, rest)
  | [], hne, _, _, _ => absurd rfl hne
  | xs, _, 0, rest, h => absurd h (Nat.not_lt_zero _)
  | [x], _, fuel + 1, rest, h => by
    rw [itemTokens, itemTokens, List.intercalate_singleton] at h ⊢
    rw [items, value_tokens x fuel _ (Nat.le_of_lt_succ h)]
    rfl
  | x :: y :: ys, _, fuel + 1, rest, h => by
    rw [itemTokens, itemTokens, List.intercalate_cons_cons] at h ⊢
    rw [← itemTokens] at h ⊢
    simp only [List.length_append, List.length_cons, List.length_nil] at h
    have hrest := items_tokens (y :: ys) (List.cons_ne_nil y ys) fuel rest (by omega)
    rw [List.append_assoc, List.append_assoc, items, value_tokens x fuel _ (by omega)]
    simp [hrest]

/-- The fields of an object are read up to the end of the object. -/
theorem fields_tokens : ∀ (xs : List (Option String × Document)), xs ≠ [] →
    ∀ (fuel : Nat) (rest : List Token),
    ([.mark ','].intercalate (fieldTokens xs)).length < fuel →
    fields fuel ([.mark ','].intercalate (fieldTokens xs) ++ .mark '\x7d' :: rest) = some (xs, rest)
  | [], hne, _, _, _ => absurd rfl hne
  | xs, _, 0, rest, h => absurd h (Nat.not_lt_zero _)
  | [(key, x)], _, fuel + 1, rest, h => by
    rw [fieldTokens, fieldTokens, List.intercalate_singleton] at h ⊢
    simp only [List.length_cons] at h
    rw [List.cons_append, List.cons_append, fields, value_tokens x fuel _ (by omega)]
    rfl
  | (key, x) :: (key', y) :: ys, _, fuel + 1, rest, h => by
    rw [fieldTokens, fieldTokens, List.intercalate_cons_cons] at h ⊢
    rw [← fieldTokens] at h ⊢
    simp only [List.length_append, List.length_cons, List.length_nil] at h
    have hrest := fields_tokens ((key', y) :: ys) (List.cons_ne_nil _ ys) fuel rest (by omega)
    rw [List.append_assoc, List.append_assoc, List.cons_append, List.cons_append, fields,
      value_tokens x fuel _ (by omega)]
    simp [hrest]

end

end Document

/-! ## The document of a value -/

/-- Whether a value can hold a number: an integer fits a word and a double is finite. -/
def Number.Legal : Number → Prop
  | .int n => FitsWord n
  | .double d => d.isFinite = true

namespace Value

mutual

/-- Whether there is no double in a value and each integer fits a word. -/
def Exact : Value → Prop
  | .null => True
  | .bool _ => True
  | .number (.int n) => FitsWord n
  | .number (.double _) => False
  | .string _ => True
  | .array items => ItemsExact items
  | .object fields => FieldsExact fields

/-- Whether each item of an array is exact. -/
def ItemsExact : List Value → Prop
  | [] => True
  | v :: vs => v.Exact ∧ ItemsExact vs

/-- Whether each field of an object is exact. -/
def FieldsExact : Fields → Prop
  | [] => True
  | (_, v) :: rest => v.Exact ∧ FieldsExact rest

end

mutual

/-- Whether each number in a value is legal. -/
def Legal : Value → Prop
  | .number x => x.Legal
  | .array items => ItemsLegal items
  | .object fields => FieldsLegal fields
  | _ => True

/-- Whether each item of an array is legal. -/
def ItemsLegal : List Value → Prop
  | [] => True
  | v :: vs => v.Legal ∧ ItemsLegal vs

/-- Whether each field of an object is legal. -/
def FieldsLegal : Fields → Prop
  | [] => True
  | (_, v) :: rest => v.Legal ∧ FieldsLegal rest

end

mutual

theorem Exact.legal : ∀ {v : Value}, v.Exact → v.Legal
  | .null, _ => trivial
  | .bool _, _ => trivial
  | .number (.int _), h => h
  | .string _, _ => trivial
  | .array _, h => ItemsExact.legal h
  | .object _, h => FieldsExact.legal h

theorem ItemsExact.legal : ∀ {items : List Value}, ItemsExact items → ItemsLegal items
  | [], _ => trivial
  | _ :: _, h => ⟨Exact.legal h.1, ItemsExact.legal h.2⟩

theorem FieldsExact.legal : ∀ {fields : Fields}, FieldsExact fields → FieldsLegal fields
  | [], _ => trivial
  | _ :: _, h => ⟨Exact.legal h.1, FieldsExact.legal h.2⟩

end

theorem fieldsLegal_iff {fields : Fields} : FieldsLegal fields ↔ ∀ field ∈ fields, field.2.Legal := by
  induction fields with
  | nil => simp [FieldsLegal]
  | cons field fields ih => rw [FieldsLegal, ih, List.forall_mem_cons]

theorem itemsExact_iff {items : List Value} : ItemsExact items ↔ ∀ v ∈ items, v.Exact := by
  induction items with
  | nil => simp [ItemsExact]
  | cons v vs ih => rw [ItemsExact, ih, List.forall_mem_cons]

theorem fieldsExact_iff {fields : Fields} : FieldsExact fields ↔ ∀ field ∈ fields, field.2.Exact := by
  induction fields with
  | nil => simp [FieldsExact]
  | cons field fields ih => rw [FieldsExact, ih, List.forall_mem_cons]

theorem fieldsExact_append {fields fields' : Fields} :
    FieldsExact (fields ++ fields') ↔ FieldsExact fields ∧ FieldsExact fields' := by
  rw [fieldsExact_iff, fieldsExact_iff, fieldsExact_iff, List.forall_mem_append]

theorem exact_ofNat {n : Nat} (h : n < UInt64.size) : (ofNat n).Exact := by
  change -9223372036854775808 ≤ (n : Int) ∧ (n : Int) < 18446744073709551616
  unfold UInt64.size at h
  omega

mutual

/-- Whether the fields of each object in a value are sorted by key with no key twice. -/
def Sorted : Value → Prop
  | .array items => ItemsSorted items
  | .object fields => (fields.map Prod.fst).Pairwise (· < ·) ∧ FieldsSorted fields
  | _ => True

/-- Whether each item of an array is sorted. -/
def ItemsSorted : List Value → Prop
  | [] => True
  | v :: vs => v.Sorted ∧ ItemsSorted vs

/-- Whether each field of an object is sorted. -/
def FieldsSorted : Fields → Prop
  | [] => True
  | (_, v) :: rest => v.Sorted ∧ FieldsSorted rest

end

theorem fieldsSorted_iff {fields : Fields} :
    FieldsSorted fields ↔ ∀ field ∈ fields, field.2.Sorted := by
  induction fields with
  | nil => simp [FieldsSorted]
  | cons field fields ih => rw [FieldsSorted, ih, List.forall_mem_cons]

mutual

/-- The document of a value without doubles. -/
def document : Value → Document
  | .null => .null
  | .bool b => .bool b
  | .number (.int n) => .number (.ofInt n)
  | .number (.double _) => .null
  | .string s => .string (some s)
  | .array items => .array (itemDocuments items)
  | .object fields => .object (fieldDocuments fields)

/-- The documents of the items of an array. -/
def itemDocuments : List Value → List Document
  | [] => []
  | v :: vs => v.document :: itemDocuments vs

/-- The documents of the fields of an object. -/
def fieldDocuments : Fields → List (Option String × Document)
  | [] => []
  | (key, v) :: rest => (some key, v.document) :: fieldDocuments rest

end

mutual

/-- The text of a value is cut into the tokens of its document. -/
theorem lexes_chars : ∀ {v : Value}, v.Exact → Lexes v.chars v.document.tokens
  | .null, _ => lexes_token (by decide) fun _ _ => rfl
  | .bool true, _ => lexes_token (by decide) fun _ _ => rfl
  | .bool false, _ => lexes_token (by decide) fun _ _ => rfl
  | .number (.int n), _ => lexes_toString n
  | .string s, _ => lexes_quote s
  | .array items, h => by
    have hitems := lexes_joinCommas (lexes_itemChars h)
    rw [chars, document, Document.tokens]
    exact (hitems.append_mark (by decide) lexes_nil).mark_cons (by decide)
  | .object fields, h => by
    have hfields := lexes_joinCommas (lexes_fieldChars h)
    rw [chars, document, Document.tokens]
    exact (hfields.append_mark (by decide) lexes_nil).mark_cons (by decide)

theorem lexes_itemChars : ∀ {items : List Value}, ItemsExact items →
    List.Forall₂ Lexes (itemChars items) (Document.itemTokens (itemDocuments items))
  | [], _ => .nil
  | _ :: _, h => .cons (lexes_chars h.1) (lexes_itemChars h.2)

theorem lexes_fieldChars : ∀ {fields : Fields}, FieldsExact fields →
    List.Forall₂ Lexes (fieldChars fields) (Document.fieldTokens (fieldDocuments fields))
  | [], _ => .nil
  | (key, _) :: _, h =>
    .cons ((lexes_quote key).append_mark (by decide) (lexes_chars h.1)) (lexes_fieldChars h.2)

end

/-- A written value is read as its document. -/
theorem ofText?_chars {v : Value} (hv : v.Exact) : Document.ofText? v.chars = some v.document := by
  have htokens := (lexes_chars hv).tokens?_eq
  have hvalue := v.document.value_tokens (2 * v.document.tokens.length + 1) [] (by omega)
  rw [List.append_nil] at hvalue
  rw [Document.ofText?, htokens, Option.bind_eq_bind, Option.bind_some, hvalue]

/-! ## The value of a document -/

/-- In sorted fields the keys in front of a field are lesser. -/
theorem lt_of_sorted {before rest : Fields} {key : String} {v : Value}
    (h : ((before ++ (key, v) :: rest).map Prod.fst).Pairwise (· < ·)) :
    ∀ field ∈ before, field.1 < key := by
  intro field hfield
  rw [List.map_append, List.pairwise_append] at h
  exact h.2.2 field.1 (List.mem_map_of_mem hfield) key List.mem_cons_self

/-- A field goes behind the fields with lesser keys. -/
theorem insert_last {key : String} {fields : Fields} (v : Value)
    (h : ∀ field ∈ fields, field.1 < key) :
    Fields.insert key v fields = fields ++ [(key, v)] := by
  induction fields with
  | nil => rfl
  | cons field fields ih =>
    have hlt : field.1 < key := h field List.mem_cons_self
    have hrest := ih fun x hx => h x (List.mem_cons_of_mem field hx)
    have hne : key ≠ field.1 := fun heq => String.lt_irrefl key (heq ▸ hlt)
    rw [Fields.insert, if_neg (String.lt_asymm hlt), if_neg hne, hrest]
    rfl

mutual

/-- How many arrays and objects stand inside each other in a value. -/
def depth : Value → Nat
  | .array items => itemsDepth items + 1
  | .object fields => fieldsDepth fields + 1
  | _ => 0

/-- The greatest depth of an item. -/
def itemsDepth : List Value → Nat
  | [] => 0
  | v :: vs => max v.depth (itemsDepth vs)

/-- The greatest depth of a field. -/
def fieldsDepth : Fields → Nat
  | [] => 0
  | (_, v) :: rest => max v.depth (fieldsDepth rest)

end

mutual

/-- The document of a value means the value. -/
theorem ofDocument?_document : ∀ {v : Value} {limit : Nat}, v.Exact → v.Sorted →
    v.depth ≤ limit → ofDocument? limit v.document = some v
  | .null, _, _, _, _ => by simp [document, ofDocument?]
  | .bool b, _, _, _, _ => by simp [document, ofDocument?]
  | .number (.int n), _, h, _, _ => by simp [document, ofDocument?, toNumber?_ofInt h]
  | .string s, _, _, _, _ => by simp [document, ofDocument?]
  | .array items, 0, _, _, hd => by simp [depth] at hd
  | .array items, limit + 1, h, hs, hd => by
    rw [depth] at hd
    rw [document, ofDocument?, ofItems?_itemDocuments h hs (Nat.le_of_succ_le_succ hd),
      Option.map_some]
  | .object fields, 0, _, _, hd => by simp [depth] at hd
  | .object fields, limit + 1, h, hs, hd => by
    rw [depth] at hd
    rw [document, ofDocument?,
      ofFields?_fieldDocuments [] hs.1 h hs.2 (Nat.le_of_succ_le_succ hd), Option.map_some]
    rfl

theorem ofItems?_itemDocuments : ∀ {items : List Value} {limit : Nat}, ItemsExact items →
    ItemsSorted items → itemsDepth items ≤ limit →
    ofItems? limit (itemDocuments items) = some items
  | [], _, _, _, _ => by simp [itemDocuments, ofItems?]
  | v :: vs, limit, h, hs, hd => by
    rw [itemsDepth, Nat.max_le] at hd
    simp [itemDocuments, ofItems?, ofDocument?_document h.1 hs.1 hd.1,
      ofItems?_itemDocuments h.2 hs.2 hd.2]

theorem ofFields?_fieldDocuments : ∀ {fields : Fields} {limit : Nat} (before : Fields),
    ((before ++ fields).map Prod.fst).Pairwise (· < ·) → FieldsExact fields →
    FieldsSorted fields → fieldsDepth fields ≤ limit →
    ofFields? limit before (fieldDocuments fields) = some (before ++ fields)
  | [], _, before, _, _, _, _ => by simp [fieldDocuments, ofFields?]
  | (key, v) :: rest, limit, before, hkeys, h, hs, hd => by
    rw [fieldsDepth, Nat.max_le] at hd
    have hlast := insert_last v (lt_of_sorted hkeys)
    have hrest := ofFields?_fieldDocuments (before ++ [(key, v)]) (by simpa using hkeys) h.2 hs.2
      hd.2
    simp [fieldDocuments, ofFields?, ofDocument?_document h.1 hs.1 hd.1, hlast, hrest]

end

/-- A value is read from its text. -/
theorem read?_write {v : Value} (hv : v.Exact) (hs : v.Sorted) (hd : v.depth ≤ maxDepth) :
    read? v.write = some v := by
  rw [read?, write, String.toList_ofList, ofText?_chars hv, Option.bind_eq_bind, Option.bind_some]
  exact ofDocument?_document hv hs hd

end Value

end Gatehouse.Json
