import CustomFunctions.Proofs.Json.Scan
import CustomFunctions.Proofs.Json.Sorted

/-!
# Reading the indented form

The machine that takes in the tokens of a written value ends with that value, whatever is open around
it. So the indented form of a value is read back as the value itself, apart from its binary numbers:
each of them is read as some binary number.

## Main definitions

- `ReadState.run_tokens` — the machine builds the value that stands written
- `Json.mapReals` — a value with other binary numbers
- `Json.read?_pretty` — the indented form is read back
-/

namespace CustomFunctions.Json

-- ════════════════════════════════════════════════════════════════════════
-- The machine
-- ════════════════════════════════════════════════════════════════════════

namespace ReadState

/-- Takes in tokens one by one. -/
def run (state : ReadState) (tokens : List Token) : Option ReadState :=
  tokens.foldlM step state

theorem run_append (state : ReadState) (tokens rest : List Token) :
    state.run (tokens ++ rest) = (state.run tokens).bind (run · rest) :=
  List.foldlM_append

theorem run_cons (state : ReadState) (t : Token) (rest : List Token) :
    state.run (t :: rest) = (state.step t).bind (run · rest) :=
  List.foldlM_cons

/-- In an array that has just been opened an item is read as behind a comma. -/
theorem run_firstItem (v : Raw) (rest : List Raw) (tokens : List Token) (stack : List Frame) :
    (firstItem stack).run (List.intercalate [.comma] (Raw.itemTokens (v :: rest)) ++ tokens) =
      (value (.array [] :: stack)).run
        (List.intercalate [.comma] (Raw.itemTokens (v :: rest)) ++ tokens) := by
  cases rest <;> cases v <;> rfl

/-- In an object that has just been opened a key is read as behind a comma. -/
theorem run_firstKey (f : List Quoted.Part × Raw) (rest : List (List Quoted.Part × Raw))
    (tokens : List Token) (stack : List Frame) :
    (firstKey stack).run (List.intercalate [.comma] (Raw.fieldTokens (f :: rest)) ++ tokens) =
      (key [] stack).run (List.intercalate [.comma] (Raw.fieldTokens (f :: rest)) ++ tokens) := by
  cases rest <;> rfl

/-- The machine builds the value, whatever is open around it. -/
def Builds (v : Raw) : Prop :=
  ∀ stack, (value stack).run v.tokens = some (.ended v stack)

/-- The items of an array are built behind those that have been read. -/
theorem run_items (v : Raw) (rest before : List Raw) (stack : List Frame)
    (h : ∀ w ∈ v :: rest, Builds w) :
    (value (.array before :: stack)).run
        (List.intercalate [.comma] (Raw.itemTokens (v :: rest)) ++ [.closeBracket]) =
      some (.ended (.array (before.reverse ++ v :: rest)) stack) := by
  induction rest generalizing v before with
  | nil =>
    rw [Raw.itemTokens, Raw.itemTokens, List.intercalate_singleton, run_append,
      h v List.mem_cons_self]
    simp [run, step]
  | cons w rest ih =>
    rw [List.forall_mem_cons] at h
    have hrest := ih w (v :: before) h.2
    rw [Raw.itemTokens] at hrest
    rw [Raw.itemTokens, Raw.itemTokens, List.intercalate_cons_cons, List.append_assoc,
      List.append_assoc, run_append, h.1, Option.bind_some, List.singleton_append, run_cons, step,
      Option.bind_some]
    simpa using hrest

/-- The fields of an object are built behind those that have been read. -/
theorem run_fields (f : List Quoted.Part × Raw) (rest before : List (List Quoted.Part × Raw))
    (stack : List Frame) (h : ∀ g ∈ f :: rest, Builds g.2) :
    (key before stack).run
        (List.intercalate [.comma] (Raw.fieldTokens (f :: rest)) ++ [.closeBrace]) =
      some (.ended (.object (before.reverse ++ f :: rest)) stack) := by
  induction rest generalizing f before with
  | nil =>
    obtain ⟨k, v⟩ := f
    have hv : Builds v := h _ List.mem_cons_self
    rw [Raw.fieldTokens, Raw.fieldTokens, List.intercalate_singleton, List.cons_append,
      List.cons_append, run_cons, step, Option.bind_some, run_cons, step, Option.bind_some,
      run_append, hv]
    simp [run, step]
  | cons g rest ih =>
    obtain ⟨k, v⟩ := f
    obtain ⟨l, w⟩ := g
    rw [List.forall_mem_cons] at h
    have hv : Builds v := h.1
    have hrest := ih (l, w) ((k, v) :: before) h.2
    rw [Raw.fieldTokens] at hrest
    rw [Raw.fieldTokens, Raw.fieldTokens, List.intercalate_cons_cons, List.append_assoc,
      List.append_assoc, List.cons_append, List.cons_append, run_cons, step, Option.bind_some,
      run_cons, step, Option.bind_some, run_append, hv, Option.bind_some, List.singleton_append,
      run_cons, step, Option.bind_some]
    simpa using hrest

/-- The machine builds the value that stands written. -/
theorem run_tokens (v : Raw) : Builds v := by
  match v with
  | .null | .bool _ | .number _ | .string _ | .array [] | .object [] => exact fun _ => rfl
  | .array (v :: rest) =>
    intro stack
    have hitems := run_items v rest [] stack fun w _ => run_tokens w
    exact (run_firstItem v rest _ stack).trans hitems
  | .object (f :: rest) =>
    intro stack
    have hfields := run_fields f rest [] stack fun g _ => run_tokens g.2
    exact (run_firstKey f rest _ stack).trans hfields
termination_by sizeOf v
decreasing_by
  · have := List.sizeOf_lt_of_mem ‹w ∈ v :: rest›
    simp only [Raw.array.sizeOf_spec]
    omega
  · have := List.sizeOf_lt_of_mem ‹g ∈ f :: rest›
    obtain ⟨k, w⟩ := g
    simp only [Raw.object.sizeOf_spec, Prod.mk.sizeOf_spec] at this ⊢
    omega

end ReadState

/-- The indented form is read as the value that stands written. -/
theorem Raw.read?_pretty {v : Json} (h : v.IsWritable) {tail : List Char}
    (htail : ∀ c ∈ tail, Token.isSpace c = true) :
    Raw.read? (prettyChars 0 v ++ tail) = some v.raw := by
  have hends : EndsNumber tail := by
    intro c hc
    have hspace := htail c (List.mem_of_head? hc)
    simp only [Token.isSpace, Bool.or_eq_true, decide_eq_true_eq] at hspace
    rcases hspace with ((rfl | rfl) | rfl) | rfl <;> decide
  have htokens : Token.scan? (prettyChars 0 v ++ tail) = some v.raw.tokens := by
    rw [scansAs_prettyChars h 0 tail hends, ← List.append_nil tail, Token.scan?_spaces htail,
      Token.scan?, Option.map_some, List.append_nil]
  have hrun := ReadState.run_tokens v.raw []
  rw [ReadState.run] at hrun
  rw [Raw.read?, htokens]
  simp only [Option.bind_eq_bind, Option.bind_some, hrun]

-- ════════════════════════════════════════════════════════════════════════
-- Values with other binary numbers
-- ════════════════════════════════════════════════════════════════════════

mutual

/-- The value with each binary number replaced. -/
def mapReals (f : Binary64 → Binary64) : Json → Json
  | .real x => .real (f x)
  | .array items => .array (mapRealsItems f items)
  | .object fields => .object (mapRealsFields f fields)
  | v => v

/-- The items of an array with their binary numbers replaced. -/
def mapRealsItems (f : Binary64 → Binary64) : List Json → List Json
  | [] => []
  | v :: rest => mapReals f v :: mapRealsItems f rest

/-- The fields of an object with their binary numbers replaced. -/
def mapRealsFields (f : Binary64 → Binary64) : List (String × Json) → List (String × Json)
  | [] => []
  | (k, v) :: rest => (k, mapReals f v) :: mapRealsFields f rest

end

variable (f : Binary64 → Binary64)

theorem mapRealsItems_eq_map (items : List Json) :
    mapRealsItems f items = items.map (mapReals f) := by
  induction items with
  | nil => rfl
  | cons v rest ih => rw [mapRealsItems, ih, List.map_cons]

theorem mapRealsFields_eq_map (fields : List (String × Json)) :
    mapRealsFields f fields = fields.map fun field => (field.1, field.2.mapReals f) := by
  induction fields with
  | nil => rfl
  | cons field rest ih => rw [mapRealsFields, ih, List.map_cons]

theorem mapReals_array (items : List Json) :
    (Json.array items).mapReals f = .array (items.map (mapReals f)) := by
  rw [mapReals, mapRealsItems_eq_map]

theorem mapReals_object (fields : List (String × Json)) :
    (Json.object fields).mapReals f =
      .object (fields.map fun field => (field.1, field.2.mapReals f)) := by
  rw [mapReals, mapRealsFields_eq_map]

/-- The number that the written form of a finite number is read as. -/
def reread (x : Binary64) : Binary64 :=
  match (realLiteral x).value? with
  | some (.real y) => y
  | _ => x

theorem value?_realLiteral {x : Binary64} (h : x.isFinite = true) :
    (realLiteral x).value? = some (.real (reread x)) := by
  obtain ⟨y, hy⟩ := NumberLiteral.exists_value? (isReal_realLiteral h)
  rw [reread, hy]

-- ════════════════════════════════════════════════════════════════════════
-- Decoding
-- ════════════════════════════════════════════════════════════════════════

theorem decodeItems?_rawItems {items : List Json}
    (h : ∀ v ∈ items, v.raw.decode? = some (v.mapReals reread)) :
    Raw.decodeItems? (rawItems items) = some (items.map (mapReals reread)) := by
  induction items with
  | nil => rfl
  | cons v rest ih =>
    rw [List.forall_mem_cons] at h
    rw [rawItems, Raw.decodeItems?, h.1, ih h.2]
    rfl

theorem decodeFields?_rawFields {fields : List (String × Json)}
    (h : ∀ field ∈ fields, field.2.raw.decode? = some (field.2.mapReals reread)) :
    Raw.decodeFields? (rawFields fields) =
      some (fields.map fun field => (field.1, field.2.mapReals reread)) := by
  induction fields with
  | nil => rfl
  | cons field rest ih =>
    rw [List.forall_mem_cons] at h
    rw [rawFields, Raw.decodeFields?, Quoted.decode?_partOf, h.1, ih h.2]
    simp

/-- A written value stands for the value, apart from its binary numbers. -/
theorem decode?_raw {depth : Nat} {v : Json} (h : v.IsReadable depth) :
    v.raw.decode? = some (v.mapReals reread) := by
  induction h with
  | null => rfl
  | bool b => rfl
  | int h => rw [raw, Raw.decode?, value?_intLiteral h, mapReals] <;> simp
  | real h => rw [raw, Raw.decode?, value?_realLiteral h, mapReals]
  | string s =>
    rw [raw, Raw.decode?, Quoted.decode?_partOf, Option.map_some, String.ofList_toList]
    rfl
  | array _ ih => rw [raw, Raw.decode?, decodeItems?_rawItems ih, mapReals_array, Option.map_some]
  | object _ ih =>
    rw [raw, Raw.decode?, decodeFields?_rawFields ih, mapReals_object, Option.map_some]

theorem depthItems_rawItems {items : List Json} {depth : Nat}
    (h : ∀ v ∈ items, v.raw.depth ≤ depth) : Raw.depthItems (rawItems items) ≤ depth := by
  induction items with
  | nil => exact Nat.zero_le _
  | cons v rest ih =>
    rw [List.forall_mem_cons] at h
    rw [rawItems, Raw.depthItems]
    exact max_le h.1 (ih h.2)

theorem depthFields_rawFields {fields : List (String × Json)} {depth : Nat}
    (h : ∀ field ∈ fields, field.2.raw.depth ≤ depth) :
    Raw.depthFields (rawFields fields) ≤ depth := by
  induction fields with
  | nil => exact Nat.zero_le _
  | cons field rest ih =>
    rw [List.forall_mem_cons] at h
    rw [rawFields, Raw.depthFields]
    exact max_le h.1 (ih h.2)

theorem depth_raw {depth : Nat} {v : Json} (h : v.IsReadable depth) : v.raw.depth ≤ depth := by
  induction h with
  | null | bool _ | int _ | real _ | string _ => exact Nat.zero_le _
  | array _ ih =>
    rw [raw, Raw.depth]
    exact Nat.succ_le_succ (depthItems_rawItems ih)
  | object _ ih =>
    rw [raw, Raw.depth]
    exact Nat.succ_le_succ (depthFields_rawFields ih)

/-- The indented form, with blanks behind it or none, is read back as the value, apart from its binary
numbers. -/
theorem read?_pretty {depth : Nat} {v : Json} (h : v.IsReadable depth) (hdepth : depth ≤ Raw.maxDepth)
    {tail : String} (htail : ∀ c ∈ tail.toList, Token.isSpace c = true) :
    Json.read? (v.pretty ++ tail) = some (v.mapReals reread) := by
  rw [Json.read?, pretty, String.toList_append, String.toList_ofList,
    Raw.read?_pretty h.isWritable htail, Option.bind_some, Raw.value?, if_pos ((depth_raw h).trans hdepth), decode?_raw h]

end CustomFunctions.Json
