import TxStore.Proofs.Json.Scan

/-!
# A printed document is read back

Both printers spell the same tokens (`Document.tokens`): the compact one without blanks, the other
one with line breaks and indentation between them. The parser reads these tokens as the document,
and its fuel suffices. So every document, however deep it is nested and whatever numbers and strings
it has, is read back from its compact text (`parse?_compress`) and from its text over several lines
(`parse?_pretty`).
-/

namespace TxStore.Document

open Json (Token Spells EndsNumber)

/-! ## The tokens of a document -/

mutual

/-- The tokens of a document. -/
def tokens : Document → List Token
  | .null => [.null]
  | .bool b => [.bool b]
  | .number n => [.number n]
  | .string s => [.string s]
  | .array items => .openArray :: itemTokens items
  | .object fields => .openObject :: fieldTokens fields

/-- The tokens of items, up to the end of their array. -/
def itemTokens : List Document → List Token
  | [] => [.closeArray]
  | [j] => tokens j ++ [.closeArray]
  | j :: k :: rest => tokens j ++ .comma :: itemTokens (k :: rest)

/-- The tokens of fields, up to the end of their object. -/
def fieldTokens : List (Option String × Document) → List Token
  | [] => [.closeObject]
  | [(name, j)] => .string name :: .colon :: (tokens j ++ [.closeObject])
  | (name, j) :: f :: rest =>
    .string name :: .colon :: (tokens j ++ .comma :: fieldTokens (f :: rest))

end

/-- The tokens of a document begin with one that does not end an array. -/
theorem tokens_cases (j : Document) : ∃ t ts, j.tokens = t :: ts ∧ t ≠ .closeArray := by
  cases j with
  | null => exact ⟨.null, [], rfl, nofun⟩
  | bool b => exact ⟨.bool b, [], rfl, nofun⟩
  | number n => exact ⟨.number n, [], rfl, nofun⟩
  | string s => exact ⟨.string s, [], rfl, nofun⟩
  | array items => exact ⟨.openArray, itemTokens items, rfl, nofun⟩
  | object fields => exact ⟨.openObject, fieldTokens fields, rfl, nofun⟩

/-- So do those of an item and what follows. -/
theorem itemTokens_cases (j : Document) (items : List Document) :
    ∃ t ts, itemTokens (j :: items) = t :: ts ∧ t ≠ .closeArray := by
  obtain ⟨t, ts, htokens, ht⟩ := j.tokens_cases
  cases items with
  | nil => exact ⟨t, ts ++ [.closeArray], by rw [itemTokens, htokens, List.cons_append], ht⟩
  | cons k rest =>
    exact ⟨t, ts ++ .comma :: itemTokens (k :: rest),
      by rw [itemTokens, htokens, List.cons_append], ht⟩

/-- The tokens of a field and what follows begin with its name. -/
theorem fieldTokens_cases (f : Option String × Document)
    (fields : List (Option String × Document)) :
    ∃ ts, fieldTokens (f :: fields) = .string f.1 :: ts := by
  cases fields with
  | nil => exact ⟨_, rfl⟩
  | cons g rest => exact ⟨_, rfl⟩

/-- An array that does not end at once is read item by item. -/
theorem ofTokens?_openArray {t : Token} (h : t ≠ .closeArray) (fuel : Nat) (ts : List Token) :
    ofTokens? (fuel + 1) (.openArray :: t :: ts) =
      (items? fuel (t :: ts)).map fun r => (.array r.1, r.2) := by
  cases t <;> first | rfl | exact absurd rfl h

/-! Fuel of two for each token is enough: reading a document takes one step, and going on behind an
item or a field takes another. -/

mutual

/-- The tokens of a document are read as the document. -/
theorem ofTokens?_tokens : (j : Document) → ∀ (fuel : Nat) (rest : List Token),
    2 * j.tokens.length ≤ fuel → ofTokens? fuel (j.tokens ++ rest) = some (j, rest)
  | .null, _ + 1, _, _ | .bool _, _ + 1, _, _ | .number _, _ + 1, _, _ | .string _, _ + 1, _, _
  | .array [], _ + 1, _, _ | .object [], _ + 1, _, _ => rfl
  | .array (j :: items), fuel + 1, rest, h => by
    -- The first token of an item closes no list, and so the list is not taken for an empty one.
    obtain ⟨t, ts, htokens, ht⟩ := itemTokens_cases j items
    have hitems : items? fuel (itemTokens (j :: items) ++ rest) = some (j :: items, rest) := by
      refine items?_itemTokens j items fuel rest ?_
      rw [tokens, List.length_cons] at h
      omega
    rw [tokens, List.cons_append]
    rw [htokens, List.cons_append] at hitems ⊢
    rw [ofTokens?_openArray ht, hitems]
    rfl
  | .object (f :: fields), fuel + 1, rest, h => by
    have hfields : fields? fuel (fieldTokens (f :: fields) ++ rest) = some (f :: fields, rest) := by
      refine fields?_fieldTokens f fields fuel rest ?_
      rw [tokens, List.length_cons] at h
      omega
    obtain ⟨ts, htokens⟩ := fieldTokens_cases f fields
    rw [tokens, List.cons_append]
    rw [htokens, List.cons_append] at hfields ⊢
    show (fields? fuel (.string f.1 :: (ts ++ rest))).map _ = _
    rw [hfields]
    rfl
  -- Without fuel there is no document, since each has a token.
  | j, 0, rest, h => by
    obtain ⟨t, ts, htokens, -⟩ := j.tokens_cases
    rw [htokens, List.length_cons] at h
    omega

/-- The tokens of items are read as the items. -/
theorem items?_itemTokens : (j : Document) → (items : List Document) → ∀ (fuel : Nat)
    (rest : List Token), 2 * (itemTokens (j :: items)).length ≤ fuel →
    items? fuel (itemTokens (j :: items) ++ rest) = some (j :: items, rest)
  | j, [], fuel + 1, rest, h => by
    have hitem : ofTokens? fuel (j.tokens ++ .closeArray :: rest) =
        some (j, .closeArray :: rest) := by
      refine ofTokens?_tokens j fuel _ ?_
      rw [itemTokens, List.length_append, List.length_singleton] at h
      omega
    rw [itemTokens, List.append_assoc, List.singleton_append, items?, hitem]
  | j, k :: items, fuel + 1, rest, h => by
    rw [itemTokens, List.length_append, List.length_cons] at h
    have hitem : ofTokens? fuel (j.tokens ++ .comma :: (itemTokens (k :: items) ++ rest)) =
        some (j, .comma :: (itemTokens (k :: items) ++ rest)) :=
      ofTokens?_tokens j fuel _ (by omega)
    have hitems : items? fuel (itemTokens (k :: items) ++ rest) = some (k :: items, rest) :=
      items?_itemTokens k items fuel rest (by omega)
    rw [itemTokens, List.append_assoc, List.cons_append, items?, hitem]
    dsimp only
    rw [hitems]
    rfl
  | j, items, 0, rest, h => by
    obtain ⟨t, ts, htokens, -⟩ := itemTokens_cases j items
    rw [htokens, List.length_cons] at h
    omega

/-- The tokens of fields are read as the fields. -/
theorem fields?_fieldTokens : (f : Option String × Document) →
    (fields : List (Option String × Document)) → ∀ (fuel : Nat) (rest : List Token),
    2 * (fieldTokens (f :: fields)).length ≤ fuel →
    fields? fuel (fieldTokens (f :: fields) ++ rest) = some (f :: fields, rest)
  | (name, j), [], fuel + 1, rest, h => by
    have hitem : ofTokens? fuel (j.tokens ++ .closeObject :: rest) =
        some (j, .closeObject :: rest) := by
      refine ofTokens?_tokens j fuel _ ?_
      rw [fieldTokens, List.length_cons, List.length_cons, List.length_append] at h
      omega
    rw [fieldTokens, List.cons_append, List.cons_append, List.append_assoc, List.singleton_append,
      fields?, hitem]
  | (name, j), g :: fields, fuel + 1, rest, h => by
    -- A call takes a unit of fuel, and at most two calls begin at one token.
    rw [fieldTokens, List.length_cons, List.length_cons, List.length_append, List.length_cons] at h
    have hitem : ofTokens? fuel (j.tokens ++ .comma :: (fieldTokens (g :: fields) ++ rest)) =
        some (j, .comma :: (fieldTokens (g :: fields) ++ rest)) :=
      ofTokens?_tokens j fuel _ (by omega)
    have hfields : fields? fuel (fieldTokens (g :: fields) ++ rest) = some (g :: fields, rest) :=
      fields?_fieldTokens g fields fuel rest (by omega)
    rw [fieldTokens, List.cons_append, List.cons_append, List.append_assoc, List.cons_append,
      fields?, hitem]
    dsimp only
    rw [hfields]
    rfl
  | (name, j), fields, 0, rest, h => by
    obtain ⟨ts, htokens⟩ := fieldTokens_cases (name, j) fields
    rw [htokens, List.length_cons] at h
    omega

end

/-- A text that spells the tokens of a document is read as the document. -/
theorem parse?_of_spells {j : Document} {cs : List Char} (h : Spells j.tokens cs) :
    parse? (String.ofList cs) = some j := by
  have hread : ofTokens? (2 * j.tokens.length + 1) j.tokens = some (j, []) := by
    have hread := j.ofTokens?_tokens (2 * j.tokens.length + 1) [] (Nat.le_succ _)
    rwa [List.append_nil] at hread
  unfold parse?
  rw [Json.tokens_of_spells h]
  show (ofTokens? (2 * j.tokens.length + 1) j.tokens).bind _ = _
  rw [hread]
  rfl

/-! ## What the printers spell -/

/-- A text that begins with none of the characters of a number does not go on with one. -/
theorem endsNumber_cons {c : Char} (h : c ∈ [',', ']', '\x7d', '\n']) (cs : List Char) :
    EndsNumber (c :: cs) := by
  rintro d hd
  obtain rfl : c = d := Option.some_inj.mp hd
  simp only [List.mem_cons, List.not_mem_nil, or_false] at h
  obtain rfl | rfl | rfl | rfl := h <;> decide

/-- Nothing does not go on with a number. -/
theorem endsNumber_nil : EndsNumber [] := nofun

mutual

/-- The compact text of a document spells its tokens. -/
theorem spells_compact : (j : Document) → ∀ {ts : List Token} {cs : List Char}, EndsNumber cs →
    Spells ts cs → Spells (j.tokens ++ ts) (j.compact ++ cs)
  | .null, _, _, _, h => .token nofun h
  | .bool _, _, _, _, h => .token nofun h
  | .number _, _, _, hends, h => .token (fun _ _ => hends) h
  | .string _, _, _, _, h => .token nofun h
  | .array items, ts, cs, _, h => by
    have hitems := spells_compactItems items h
    rw [compact, List.cons_append, List.cons_append, List.append_assoc]
    exact .token (t := .openArray) nofun hitems
  | .object fields, ts, cs, _, h => by
    have hfields := spells_compactFields fields h
    rw [compact, List.cons_append, List.cons_append, List.append_assoc]
    exact .token (t := .openObject) nofun hfields

/-- The compact text of items, with the end of their array, spells their tokens. -/
theorem spells_compactItems : (items : List Document) → ∀ {ts : List Token} {cs : List Char},
    Spells ts cs → Spells (itemTokens items ++ ts) (compactItems items ++ ']' :: cs)
  | [], _, _, h => .token (t := .closeArray) nofun h
  | [j], ts, cs, h => by
    have hend : Spells (.closeArray :: ts) (']' :: cs) := .token (t := .closeArray) nofun h
    rw [itemTokens, List.append_assoc]
    exact spells_compact j (endsNumber_cons (by decide) cs) hend
  | j :: k :: rest, ts, cs, h => by
    have hrest : Spells (.comma :: (itemTokens (k :: rest) ++ ts))
        (',' :: (compactItems (k :: rest) ++ ']' :: cs)) :=
      .token (t := .comma) nofun (spells_compactItems (k :: rest) h)
    rw [itemTokens, compactItems, List.append_assoc, List.append_assoc]
    exact spells_compact j (endsNumber_cons (by decide) _) hrest

/-- The compact text of fields, with the end of their object, spells their tokens. -/
theorem spells_compactFields : (fields : List (Option String × Document)) →
    ∀ {ts : List Token} {cs : List Char}, Spells ts cs →
    Spells (fieldTokens fields ++ ts) (compactFields fields ++ '\x7d' :: cs)
  | [], _, _, h => .token (t := .closeObject) nofun h
  | [(name, j)], ts, cs, h => by
    have hend : Spells (.closeObject :: ts) ('\x7d' :: cs) := .token (t := .closeObject) nofun h
    have hitem := spells_compact j (endsNumber_cons (by decide) cs) hend
    have hcolon : Spells (.colon :: (j.tokens ++ .closeObject :: ts))
        (':' :: (j.compact ++ '\x7d' :: cs)) := .token (t := .colon) nofun hitem
    simpa [fieldTokens, compactFields, Token.text] using
      Spells.token (t := .string name) nofun hcolon
  | (name, j) :: f :: rest, ts, cs, h => by
    have hrest : Spells (.comma :: (fieldTokens (f :: rest) ++ ts))
        (',' :: (compactFields (f :: rest) ++ '\x7d' :: cs)) :=
      .token (t := .comma) nofun (spells_compactFields (f :: rest) h)
    have hitem := spells_compact j (endsNumber_cons (by decide) _) hrest
    have hcolon := Spells.token (t := .colon) nofun hitem
    simpa [fieldTokens, compactFields, Token.text] using
      Spells.token (t := .string name) nofun hcolon

end

/-- A line break with its indentation stands for nothing. -/
theorem spells_newLine (level : Nat) {ts : List Token} {cs : List Char} (h : Spells ts cs) :
    Spells ts (newLine level ++ cs) := by
  have hblanks : ∀ n, Spells ts (List.replicate n ' ' ++ cs) := fun n => by
    induction n with
    | zero => exact h
    | succ n ih => exact .blank rfl ih
  exact .blank rfl (hblanks _)

mutual

/-- The text of a document over several lines spells its tokens. -/
theorem spells_prettyAt : (j : Document) → ∀ (level : Nat) {ts : List Token} {cs : List Char},
    EndsNumber cs → Spells ts cs → Spells (j.tokens ++ ts) (prettyAt level j ++ cs)
  | .null, _, _, _, _, h => .token nofun h
  | .bool _, _, _, _, _, h => .token nofun h
  | .number _, _, _, _, hends, h => .token (fun _ _ => hends) h
  | .string _, _, _, _, _, h => .token nofun h
  | .array [], _, _, _, _, h =>
    .token (t := .openArray) nofun (.token (t := .closeArray) nofun h)
  | .array (j :: rest), level, ts, cs, _, h => by
    have hitems := spells_newLine (level + 1)
      (spells_prettyItems (j :: rest) nofun (level + 1) level h)
    have hall := Spells.token (t := .openArray) nofun hitems
    simpa [tokens, prettyAt, Token.text] using hall
  | .object [], _, _, _, _, h =>
    .token (t := .openObject) nofun (.token (t := .closeObject) nofun h)
  | .object (f :: rest), level, ts, cs, _, h => by
    have hfields := spells_newLine (level + 1)
      (spells_prettyFields (f :: rest) nofun (level + 1) level h)
    have hall := Spells.token (t := .openObject) nofun hfields
    simpa [tokens, prettyAt, Token.text] using hall

/-- The text of items over several lines, with the end of their array, spells their tokens. -/
theorem spells_prettyItems : (items : List Document) → items ≠ [] → ∀ (level outer : Nat)
    {ts : List Token} {cs : List Char}, Spells ts cs →
    Spells (itemTokens items ++ ts) (prettyItems level items ++ (newLine outer ++ ']' :: cs))
  | [j], _, level, outer, ts, cs, h => by
    have hend : Spells (.closeArray :: ts) (newLine outer ++ ']' :: cs) :=
      spells_newLine outer (.token (t := .closeArray) nofun h)
    rw [itemTokens, List.append_assoc]
    exact spells_prettyAt j level (endsNumber_cons (by decide) _) hend
  | j :: k :: rest, _, level, outer, ts, cs, h => by
    have hrest := Spells.token (t := .comma) nofun
      (spells_newLine level (spells_prettyItems (k :: rest) nofun level outer h))
    have hall := spells_prettyAt j level (endsNumber_cons (by decide) _) hrest
    simpa [itemTokens, prettyItems, Token.text] using hall

/-- The text of fields over several lines, with the end of their object, spells their tokens. -/
theorem spells_prettyFields : (fields : List (Option String × Document)) → fields ≠ [] →
    ∀ (level outer : Nat) {ts : List Token} {cs : List Char}, Spells ts cs →
    Spells (fieldTokens fields ++ ts)
      (prettyFields level fields ++ (newLine outer ++ '\x7d' :: cs))
  | [(name, j)], _, level, outer, ts, cs, h => by
    have hend : Spells (.closeObject :: ts) (newLine outer ++ '\x7d' :: cs) :=
      spells_newLine outer (.token (t := .closeObject) nofun h)
    have hitem : Spells (j.tokens ++ .closeObject :: ts)
        (prettyAt level j ++ (newLine outer ++ '\x7d' :: cs)) :=
      spells_prettyAt j level (endsNumber_cons (by decide) _) hend
    have hcolon := Spells.token (t := .colon) nofun (.blank (c := ' ') rfl hitem)
    simpa [fieldTokens, prettyFields, Token.text] using
      Spells.token (t := .string name) nofun hcolon
  | (name, j) :: f :: rest, _, level, outer, ts, cs, h => by
    have hrest := Spells.token (t := .comma) nofun
      (spells_newLine level (spells_prettyFields (f :: rest) nofun level outer h))
    have hitem := spells_prettyAt j level (endsNumber_cons (by decide) _) hrest
    have hcolon := Spells.token (t := .colon) nofun (.blank (c := ' ') rfl hitem)
    simpa [fieldTokens, prettyFields, Token.text] using
      Spells.token (t := .string name) nofun hcolon

end

/-- A document is read back from its compact text. -/
theorem parse?_compress (j : Document) : parse? j.compress = some j := by
  have hspells := spells_compact j endsNumber_nil .nil
  rw [List.append_nil, List.append_nil] at hspells
  exact parse?_of_spells hspells

/-- A document is read back from its text over several lines. -/
theorem parse?_pretty (j : Document) : parse? j.pretty = some j := by
  have hspells := spells_prettyAt j 0 endsNumber_nil .nil
  rw [List.append_nil, List.append_nil] at hspells
  exact parse?_of_spells hspells

end TxStore.Document
