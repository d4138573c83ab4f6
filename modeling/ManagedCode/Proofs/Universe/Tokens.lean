import ManagedCode.Proofs.Universe.Building

set_option autoImplicit false

/-! # Tokens are unique and stable

Tokens of five tables share one space of words. Up to the number of rows that a token can tell
apart, a token and its table and row determine each other (`TokenTable.position?_token`,
`TokenTable.token_of_position?`). An extension that registers something adds a row at the end of its
table and leaves all other rows alone (`Universe.row?_extend`), so that the tokens that a series of
extensions is answered with are those of the rows it adds (`Universe.mem_issued_iff`). What the
queries say about a token is what they say about the row (`Universe.answers_token`). Together:
`Universe.tokens_unique`.
-/

namespace ManagedCode

/-! ## Tokens and rows -/

namespace TokenTable

theorem number_lt (table : TokenTable) : table.number < 0x80 := by cases table <;> decide

theorem number_injective {table table' : TokenTable} (h : table.number = table'.number) :
    table = table' := by
  revert h
  cases table <;> cases table' <;> decide

/-- The number of the table and the row stand side by side in a token. -/
theorem toNat_token (table : TokenTable) {position : Nat} (h : position + 1 < rows) :
    (table.token position).toNat = table.number * rows + (position + 1) := by
  have hnumber := table.number_lt
  have hrows : rows = 2 ^ 24 := rfl
  have hsize : UInt32.size = 2 ^ 32 := rfl
  have hhigh : (UInt32.ofNat table.number <<< 24).toNat = table.number <<< 24 := by
    rw [UInt32.toNat_shiftLeft, UInt32.toNat_ofNat_of_lt' (by omega)]
    show table.number <<< 24 % 2 ^ 32 = table.number <<< 24
    rw [Nat.shiftLeft_eq]
    exact Nat.mod_eq_of_lt (by omega)
  have hlow : (UInt32.ofNat (position + 1)).toNat = position + 1 :=
    UInt32.toNat_ofNat_of_lt' (by omega)
  rw [token, UInt32.toNat_or, hhigh, hlow, ← Nat.shiftLeft_add_eq_or_of_lt (hrows ▸ h),
    Nat.shiftLeft_eq, hrows]

/-- A token leads back to its row, and to nothing in other tables. -/
theorem position?_token (table table' : TokenTable) {position : Nat} (h : position + 1 < rows) :
    table'.position? (table.token position) = if table = table' then some position else none := by
  have hdiv : (table.token position).toNat / rows = table.number := by
    rw [table.toNat_token h, Nat.mul_comm, Nat.mul_add_div (by decide), Nat.div_eq_of_lt h,
      Nat.add_zero]
  have hmod : (table.token position).toNat % rows = position + 1 := by
    rw [table.toNat_token h, Nat.mul_comm, Nat.mul_add_mod, Nat.mod_eq_of_lt h]
  unfold position?
  rw [hdiv, hmod]
  by_cases htable : table = table'
  · rw [if_pos (congrArg number htable), if_pos htable]
  · rw [if_neg fun hnumber => htable (number_injective hnumber), if_neg htable]

/-- Only the token of a row leads to it. -/
theorem token_of_position? {table : TokenTable} {token : Token} {position : Nat}
    (h : table.position? token = some position) :
    position + 1 < rows ∧ token = table.token position := by
  unfold position? at h
  split at h
  · rename_i hdiv
    split at h
    · cases h
    · rename_i row hmod
      obtain rfl : row = position := Option.some.inj h
      have hlt : row + 1 < rows := by
        rw [← Nat.succ_eq_add_one, ← hmod]
        exact Nat.mod_lt _ (by decide)
      refine ⟨hlt, UInt32.toNat_inj.mp ?_⟩
      rw [table.toNat_token hlt, ← hdiv, ← Nat.succ_eq_add_one, ← hmod, Nat.div_add_mod']
  · cases h

theorem token_inj {table table' : TokenTable} {position position' : Nat}
    (hposition : position + 1 < rows) (hposition' : position' + 1 < rows)
    (h : table.token position = table'.token position') :
    table = table' ∧ position = position' := by
  have hsame := position?_token table table' hposition
  rw [h, position?_token table' table' hposition', if_pos rfl] at hsame
  split at hsame
  · rename_i htable
    exact ⟨htable, (Option.some.inj hsame).symm⟩
  · cases hsame

end TokenTable

/-! ## Registrations -/

/-- What a universe says about a token. -/
structure Answers where
  type : Option Ty := none
  field : Option Field := none
  method : Option Method := none
  signature : Option Signature := none
  hasString : Bool := false
  /-- The string literal, which stands in the table and which no query gives. -/
  literal : Option String := none
  entity : Option Entity := none

namespace Extension

/-- The table that the extension adds a row to. -/
def table? : Extension → Option TokenTable
  | .type _ => some .type
  | .field _ => some .field
  | .method _ => some .method
  | .signature _ => some .signature
  | .string _ => some .string
  | _ => none

/-- What the queries have to say about the token of what was registered: the query of its own table
gives it, and the others give nothing. Signatures and strings are no entities. -/
def answers : Extension → Answers
  | .type ty => { type := some ty, entity := some (.type ty) }
  | .field f => { field := some f, entity := some (.field f) }
  | .method m => { method := some m, entity := some (.method m) }
  | .signature s => { signature := some s }
  | .string text => { hasString := true, literal := some text }
  | _ => {}

end Extension

namespace Universe

/-- What the queries say about a token, and the table of strings. -/
def answers (u : Universe) (token : Token) : Answers where
  type := u.type? token
  field := u.field? token
  method := u.method? token
  signature := u.signature? token
  hasString := u.hasString token
  literal := (TokenTable.string.position? token).bind (u.strings[·]?)
  entity := u.entity? token

/-- The token that an extension is answered with. -/
def token? (u : Universe) : Extension → Option Token
  | .type ty => some (u.addType ty).1
  | .field field => some (u.addField field).1
  | .method method => some (u.addMethod method).1
  | .signature signature => some (u.addSignature signature).1
  | .string value => some (u.addString value).1
  | _ => none

/-! ## Rows -/

/-- The number of rows of a table. -/
def rowCount (u : Universe) : TokenTable → Nat
  | .type => u.types.size
  | .field => u.fields.size
  | .method => u.methods.size
  | .signature => u.signatures.size
  | .string => u.strings.size

/-- What was registered in a row, counted from zero. -/
def row? (u : Universe) : TokenTable → Nat → Option Extension
  | .type, position => u.types[position]?.map .type
  | .field, position => u.fields[position]?.map .field
  | .method, position => u.methods[position]?.map .method
  | .signature, position => u.signatures[position]?.map .signature
  | .string, position => u.strings[position]?.map .string

theorem lt_rowCount_of_row? {u : Universe} {table : TokenTable} {position : Nat} {e : Extension}
    (h : u.row? table position = some e) : position < u.rowCount table := by
  cases table <;>
  · obtain ⟨_, hrow, _⟩ := Option.map_eq_some_iff.mp h
    exact (Array.getElem?_eq_some_iff.mp hrow).1

theorem token?_eq (u : Universe) (e : Extension) :
    u.token? e = e.table?.map fun table => table.token (u.rowCount table) := by
  cases e <;> rfl

theorem rowCount_extend (u : Universe) (e : Extension) (table : TokenTable) :
    (u.extend e).rowCount table = u.rowCount table + if e.table? = some table then 1 else 0 := by
  cases e with
  | type | field | method | signature | string =>
      cases table <;> simp [extend, addType, addField, addMethod, addSignature, addString, rowCount,
        Extension.table?]
  | _ => cases table <;> rfl

theorem rowCount_le_extend (u : Universe) (e : Extension) (table : TokenTable) :
    u.rowCount table ≤ (u.extend e).rowCount table := by
  rw [rowCount_extend]
  exact Nat.le_add_right _ _

theorem rowCount_extend_of_table? {u : Universe} {e : Extension} {table : TokenTable}
    (h : e.table? = some table) : (u.extend e).rowCount table = u.rowCount table + 1 := by
  rw [rowCount_extend, if_pos h]

/-- A table grows at its end, by what is registered in it. -/
theorem row?_extend (u : Universe) (e : Extension) (table : TokenTable) (position : Nat) :
    (u.extend e).row? table position =
      if e.table? = some table ∧ position = u.rowCount table then some e
      else u.row? table position := by
  -- All five tables are arrays that grow by a push.
  have hpush : ∀ {α : Type} (rows : Array α) (row : α) (make : α → Extension),
      (rows.push row)[position]?.map make =
        if position = rows.size then some (make row) else rows[position]?.map make := by
    intro α rows row make
    rw [Array.getElem?_push]
    split <;> rfl
  cases e with
  | type | field | method | signature | string =>
      cases table <;> simp [extend, addType, addField, addMethod, addSignature, addString, row?,
        rowCount, Extension.table?, hpush]
  | _ => cases table <;> rfl

/-- Rows that are there stay as they are. -/
theorem row?_extend_of_lt {u : Universe} {table : TokenTable} {position : Nat}
    (h : position < u.rowCount table) (e : Extension) :
    (u.extend e).row? table position = u.row? table position := by
  rw [row?_extend, if_neg fun hnew => Nat.ne_of_lt h hnew.2]

/-! ## Series of extensions -/

/-- The universe after a series of extensions. -/
def extendAll (u : Universe) (extensions : List Extension) : Universe := extensions.foldl extend u

/-- The tokens that a series of extensions is answered with, each with what it was given for. -/
def issued (u : Universe) : List Extension → List (Token × Extension)
  | [] => []
  | e :: rest => ((u.token? e).map (·, e)).toList ++ (u.extend e).issued rest

theorem rowCount_extendAll (u : Universe) (extensions : List Extension) (table : TokenTable) :
    (u.extendAll extensions).rowCount table =
      u.rowCount table + extensions.countP (·.table? = some table) := by
  induction extensions generalizing u with
  | nil => rfl
  | cons e rest ih =>
      show ((u.extend e).extendAll rest).rowCount table = _
      rw [ih, rowCount_extend, List.countP_cons, Nat.add_assoc, Nat.add_comm (ite _ _ _)]
      simp only [decide_eq_true_eq]

theorem rowCount_core (table : TokenTable) : core.rowCount table = 0 := by cases table <;> rfl

theorem rowCount_extendAll_core (extensions : List Extension) (table : TokenTable) :
    (core.extendAll extensions).rowCount table = extensions.countP (·.table? = some table) := by
  rw [rowCount_extendAll, rowCount_core, Nat.zero_add]

/-- The first of a series of extensions has room if the whole series has. -/
theorem rowCount_add_one_lt {u : Universe} {first : Extension} {table : TokenTable}
    (htable : first.table? = some table) {rest : List Extension} {bound : Nat}
    (h : (u.extendAll (first :: rest)).rowCount table < bound) : u.rowCount table + 1 < bound := by
  have hgrown : (u.extend first).rowCount table = u.rowCount table + 1 :=
    rowCount_extend_of_table? htable
  have htotal := rowCount_extendAll (u.extend first) rest table
  have hbound : ((u.extend first).extendAll rest).rowCount table < bound := h
  omega

theorem row?_extendAll_of_lt {u : Universe} {table : TokenTable} {position : Nat}
    (h : position < u.rowCount table) (extensions : List Extension) :
    (u.extendAll extensions).row? table position = u.row? table position := by
  induction extensions generalizing u with
  | nil => rfl
  | cons e rest ih =>
      have hlt : position < (u.extend e).rowCount table :=
        Nat.lt_of_lt_of_le h (u.rowCount_le_extend e table)
      exact (ih hlt).trans (row?_extend_of_lt h e)

/-- **The tokens that are handed out are those of the rows that are added.** -/
theorem mem_issued_iff {u : Universe} {extensions : List Extension} {token : Token}
    {e : Extension} :
    (token, e) ∈ u.issued extensions ↔
      ∃ table position, u.rowCount table ≤ position ∧
        (u.extendAll extensions).row? table position = some e ∧ token = table.token position := by
  induction extensions generalizing u with
  | nil =>
      constructor
      · intro h
        cases h
      · rintro ⟨table, position, hge, hrow, _⟩
        exact absurd (lt_rowCount_of_row? hrow) (Nat.not_lt_of_le hge)
  | cons first rest ih =>
      show (token, e) ∈ ((u.token? first).map (·, first)).toList ++ (u.extend first).issued rest ↔
        ∃ table position, u.rowCount table ≤ position ∧
          ((u.extend first).extendAll rest).row? table position = some e ∧
          token = table.token position
      rw [List.mem_append, ih, Option.mem_toList, Option.map_eq_some_iff, token?_eq]
      -- The first extension is answered with the token of the row that it adds, if it adds one.
      have hadded : ∀ table, first.table? = some table →
          ((u.extend first).extendAll rest).row? table (u.rowCount table) = some first := by
        intro table htable
        have hlt : u.rowCount table < (u.extend first).rowCount table := by
          rw [rowCount_extend_of_table? htable]
          exact Nat.lt_succ_self _
        rw [row?_extendAll_of_lt hlt, row?_extend, if_pos ⟨htable, rfl⟩]
      constructor
      · rintro (⟨_, htoken, heq⟩ | ⟨table, position, hge, hrow, htoken⟩)
        · cases heq
          obtain ⟨table, htable, rfl⟩ := Option.map_eq_some_iff.mp htoken
          exact ⟨table, u.rowCount table, Nat.le_refl _, hadded table htable, rfl⟩
        · exact ⟨table, position, Nat.le_trans (u.rowCount_le_extend first table) hge, hrow, htoken⟩
      · rintro ⟨table, position, hge, hrow, rfl⟩
        by_cases hlater : (u.extend first).rowCount table ≤ position
        · exact .inr ⟨table, position, hlater, hrow, rfl⟩
        · by_cases htable : first.table? = some table
          · rw [rowCount_extend_of_table? htable] at hlater
            obtain rfl : position = u.rowCount table := by omega
            rw [hadded table htable] at hrow
            cases hrow
            exact .inl ⟨_, Option.map_eq_some_iff.mpr ⟨table, htable, rfl⟩, rfl⟩
          · rw [rowCount_extend, if_neg htable] at hlater
            exact absurd hge hlater

/-- No token is handed out twice, as long as no table outgrows the rows that tokens tell apart. -/
theorem nodup_issued {u : Universe} {extensions : List Extension}
    (h : ∀ table, (u.extendAll extensions).rowCount table < TokenTable.rows) :
    ((u.issued extensions).map Prod.fst).Nodup := by
  induction extensions generalizing u with
  | nil => exact .nil
  | cons first rest ih =>
      have hrest : (((u.extend first).issued rest).map Prod.fst).Nodup := ih h
      rw [issued, token?_eq]
      -- The first token is that of the row at the end of its table, and later rows lie behind it.
      cases htable : first.table? with
      | none => exact hrest
      | some table =>
          refine List.nodup_cons.mpr ⟨?_, hrest⟩
          intro hmem
          obtain ⟨⟨_, e⟩, he, rfl⟩ := List.mem_map.mp hmem
          obtain ⟨table', position, hge, hrow, htoken⟩ := mem_issued_iff.mp he
          have hgrown : (u.extend first).rowCount table = u.rowCount table + 1 :=
            rowCount_extend_of_table? htable
          have hfirst : u.rowCount table + 1 < TokenTable.rows :=
            rowCount_add_one_lt htable (h table)
          have hlater : position + 1 < TokenTable.rows :=
            Nat.lt_of_le_of_lt (lt_rowCount_of_row? hrow) (h table')
          obtain ⟨rfl, rfl⟩ := TokenTable.token_inj hfirst hlater htoken
          omega

/-! ## Answers -/

/-- The queries say about the token of a row what they have to say about what was registered in
it. -/
theorem answers_token (u : Universe) (table : TokenTable) {position : Nat}
    (h : position + 1 < TokenTable.rows) :
    u.answers (table.token position) =
      ((u.row? table position).map Extension.answers).getD {} := by
  unfold answers entity? type? field? method? signature? hasString
  simp only [TokenTable.position?_token table _ h]
  cases table with
  | type => cases hrow : u.types[position]? <;> simp [row?, hrow, Extension.answers]
  | field => cases hrow : u.fields[position]? <;> simp [row?, hrow, Extension.answers]
  | method => cases hrow : u.methods[position]? <;> simp [row?, hrow, Extension.answers]
  | signature => cases hrow : u.signatures[position]? <;> simp [row?, hrow, Extension.answers]
  | string => cases hrow : u.strings[position]? <;> simp [row?, hrow, Extension.answers]

/-- The queries say nothing about a word that is the token of no row. -/
theorem answers_eq_nothing (u : Universe) {token : Token}
    (h : ∀ (table : TokenTable) position, position + 1 < TokenTable.rows →
      token ≠ table.token position) : u.answers token = {} := by
  have hnone : ∀ table : TokenTable, table.position? token = none := by
    intro table
    cases hposition : table.position? token with
    | none => rfl
    | some position =>
        obtain ⟨hlt, htoken⟩ := TokenTable.token_of_position? hposition
        exact absurd htoken (h table position hlt)
  simp [answers, entity?, type?, field?, method?, signature?, hasString, hnone]

/-- **Tokens are unique and stable.** Take any series of extensions of the core that adds fewer rows
to each table than a token can tell apart. The tokens that it is answered with are pairwise
distinct. When all extensions are made, the query of its own table gives for each token what it was
handed out for, the queries of other tables give nothing, and types, fields and methods are entities
while signatures and strings are none. About words that were not handed out no query says
anything. -/
theorem tokens_unique (extensions : List Extension)
    (h : ∀ table, extensions.countP (·.table? = some table) < TokenTable.rows) :
    let u := core.extendAll extensions
    ((core.issued extensions).map Prod.fst).Nodup ∧
      (∀ token e, (token, e) ∈ core.issued extensions → u.answers token = e.answers) ∧
      ∀ token, (∀ e, (token, e) ∉ core.issued extensions) → u.answers token = {} := by
  intro u
  have hcount : ∀ table, u.rowCount table < TokenTable.rows := by
    intro table
    rw [rowCount_extendAll_core]
    exact h table
  have hrows : ∀ table position e, u.row? table position = some e →
      position + 1 < TokenTable.rows :=
    fun table position e hrow => Nat.lt_of_le_of_lt (lt_rowCount_of_row? hrow) (hcount table)
  refine ⟨nodup_issued hcount, ?_, ?_⟩
  · intro token e he
    obtain ⟨table, position, _, hrow, rfl⟩ := mem_issued_iff.mp he
    rw [answers_token u table (hrows table position e hrow), hrow]
    rfl
  · -- A word that was not handed out is the token of a row that is not there, or of no row at all.
    intro token hnever
    by_cases hshape : ∃ table position, position + 1 < TokenTable.rows ∧
        token = TokenTable.token table position
    · obtain ⟨table, position, hlt, rfl⟩ := hshape
      rw [answers_token u table hlt]
      cases hrow : u.row? table position with
      | none => rfl
      | some e =>
          refine absurd (mem_issued_iff.mpr ⟨table, position, ?_, hrow, rfl⟩) (hnever e)
          rw [rowCount_core]
          exact Nat.zero_le _
    · refine u.answers_eq_nothing fun table position hlt htoken => hshape ?_
      exact ⟨table, position, hlt, htoken⟩

/-- Two types with a string, a class and a signature between them. -/
def registrations : List Extension :=
  [.type (.ref ⟨22⟩), .string "bark", .reference "Dog" WellKnown.object.id,
    .signature { params := [.ref ⟨22⟩] }, .type (.array (.ref ⟨22⟩))]

/-- The second type is found in spite of what was registered between the two, a signature is no
entity, and the row behind the last type is empty. -/
theorem tokens_unique_registrations :
    (∀ table, registrations.countP (·.table? = some table) < TokenTable.rows) ∧
      (core.issued registrations).map Prod.fst =
        [0x1B000001, 0x70000001, 0x11000001, 0x1B000002] ∧
      ((core.issued registrations).map Prod.fst).Nodup ∧
      (core.extendAll registrations).answers 0x1B000002 =
        { type := some (.array (.ref ⟨22⟩)), entity := some (.type (.array (.ref ⟨22⟩))) } ∧
      (core.extendAll registrations).answers 0x11000001 =
        { signature := some { params := [.ref ⟨22⟩] } } ∧
      (core.extendAll registrations).answers 0x1B000003 = {} := by
  have hfew : ∀ table, registrations.countP (·.table? = some table) < TokenTable.rows := by
    intro table
    cases table <;> decide
  have hissued : core.issued registrations =
      [(0x1B000001, .type (.ref ⟨22⟩)), (0x70000001, .string "bark"),
        (0x11000001, .signature { params := [.ref ⟨22⟩] }),
        (0x1B000002, .type (.array (.ref ⟨22⟩)))] := rfl
  obtain ⟨hnodup, hanswers, hnothing⟩ := tokens_unique registrations hfew
  refine ⟨hfew, by rw [hissued]; rfl, hnodup, hanswers _ (.type (.array (.ref ⟨22⟩))) ?_,
    hanswers _ (.signature { params := [.ref ⟨22⟩] }) ?_, hnothing _ fun e => ?_⟩
  · simp [hissued]
  · simp [hissued]
  · simp [hissued]

end Universe

end ManagedCode
