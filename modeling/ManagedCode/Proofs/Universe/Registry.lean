import ManagedCode.Proofs.Universe.Tokens
import Mathlib.Data.List.Nodup

set_option autoImplicit false

/-! # Tables that are keyed by token

A token need not be taken apart to find what it names. A `Registry` keeps one map for each table,
keyed by token, and counts the rows that it has given out for each table. As long as each table has
fewer rows than a token can tell apart, it hands out the tokens that a universe hands out and finds
under every word what a universe finds by arithmetic (`Registry.issue_core`). Behind these rows the
two part: a row that is too large runs into the number of the table.
-/

namespace ManagedCode

/-- Maps from tokens to what they name. -/
structure Registry where
  types : Std.HashMap Token Ty := ∅
  fields : Std.HashMap Token Field := ∅
  methods : Std.HashMap Token Method := ∅
  signatures : Std.HashMap Token Signature := ∅
  strings : Std.HashMap Token String := ∅
  /-- The last row that was given out, by the number of the table. -/
  lastRow : Std.HashMap UInt32 UInt32 := ∅

namespace Registry

/-- The token of the next row of a table. -/
def nextToken (r : Registry) (table : TokenTable) : Token × Registry :=
  let number := UInt32.ofNat table.number
  let row := r.lastRow.getD number 0 + 1
  (number <<< 24 ||| row, { r with lastRow := r.lastRow.insert number row })

/-- Registers what an extension adds to a table, and answers with its token. -/
def add (r : Registry) : Extension → Option Token × Registry
  | .type ty =>
      let (token, r) := r.nextToken .type
      (some token, { r with types := r.types.insert token ty })
  | .field field =>
      let (token, r) := r.nextToken .field
      (some token, { r with fields := r.fields.insert token field })
  | .method method =>
      let (token, r) := r.nextToken .method
      (some token, { r with methods := r.methods.insert token method })
  | .signature signature =>
      let (token, r) := r.nextToken .signature
      (some token, { r with signatures := r.signatures.insert token signature })
  | .string value =>
      let (token, r) := r.nextToken .string
      (some token, { r with strings := r.strings.insert token value })
  | _ => (none, r)

/-- The tokens that a series of extensions is answered with, each with what it was given for, and
the registry afterwards. -/
def issue (r : Registry) : List Extension → List (Token × Extension) × Registry
  | [] => ([], r)
  | e :: rest =>
      let (token, r) := r.add e
      let (tokens, r) := r.issue rest
      ((token.map (·, e)).toList ++ tokens, r)

/-- What the maps say about a token. -/
def answers (r : Registry) (token : Token) : Answers where
  type := r.types[token]?
  field := r.fields[token]?
  method := r.methods[token]?
  signature := r.signatures[token]?
  hasString := r.strings.contains token
  literal := r.strings[token]?
  entity :=
    r.types[token]?.map .type <|> r.fields[token]?.map .field <|> r.methods[token]?.map .method

/-! ## A map and the rows of a table -/

section

variable {α : Type}

/-- A token is found in the map exactly if it leads to a row, and then with what stands there. -/
def Mirrors (table : TokenTable) (map : Std.HashMap Token α) (rows : Array α) : Prop :=
  ∀ token, map[token]? = (table.position? token).bind (rows[·]?)

theorem mirrors_empty (table : TokenTable) : Mirrors table (∅ : Std.HashMap Token α) #[] := by
  intro token
  rw [Std.HashMap.getElem?_empty]
  cases table.position? token <;> rfl

/-- A row that is added at the end is found under its token, and all else is found as before. -/
theorem Mirrors.push {table : TokenTable} {map : Std.HashMap Token α} {rows : Array α}
    (h : Mirrors table map rows) (hroom : rows.size + 1 < TokenTable.rows) {token : Token}
    (htoken : token = table.token rows.size) (row : α) :
    Mirrors table (map.insert token row) (rows.push row) := by
  subst htoken
  intro token
  rw [Std.HashMap.getElem?_insert]
  by_cases hnew : table.token rows.size = token
  · subst hnew
    rw [if_pos (beq_self_eq_true _), TokenTable.position?_token table table hroom, if_pos rfl]
    exact Array.getElem?_push_size.symm
  · rw [if_neg (mt beq_iff_eq.mp hnew), h token]
    cases hposition : table.position? token with
    | none => rfl
    | some position =>
        obtain ⟨_, rfl⟩ := TokenTable.token_of_position? hposition
        have hother : position ≠ rows.size := by
          rintro rfl
          exact hnew rfl
        show rows[position]? = (rows.push row)[position]?
        rw [Array.getElem?_push, if_neg hother]

end

/-! ## A registry and a universe -/

/-- The registry has given out as many rows as the universe has, and the maps mirror its tables. -/
structure Keeps (r : Registry) (u : Universe) : Prop where
  lastRow : ∀ table : TokenTable,
    r.lastRow.getD (UInt32.ofNat table.number) 0 = UInt32.ofNat (u.rowCount table)
  types : Mirrors .type r.types u.types
  fields : Mirrors .field r.fields u.fields
  methods : Mirrors .method r.methods u.methods
  signatures : Mirrors .signature r.signatures u.signatures
  strings : Mirrors .string r.strings u.strings

theorem keeps_core : Keeps {} Universe.core where
  lastRow table := by
    rw [Universe.rowCount_core, Std.HashMap.getD_empty]
    rfl
  types := mirrors_empty _
  fields := mirrors_empty _
  methods := mirrors_empty _
  signatures := mirrors_empty _
  strings := mirrors_empty _

/-- Only the table that an extension adds to is counted on. -/
theorem lastRow_add (r : Registry) (e : Extension) :
    (r.add e).2.lastRow =
      (e.table?.map fun table => (r.nextToken table).2.lastRow).getD r.lastRow := by
  cases e <;> rfl

theorem ofNat_number_inj {table table' : TokenTable} :
    UInt32.ofNat table.number = UInt32.ofNat table'.number ↔ table = table' := by
  cases table <;> cases table' <;> decide

namespace Keeps

variable {r : Registry} {u : Universe} (h : r.Keeps u)
include h

/-- The maps say about every word what the universe says. -/
theorem answers_eq (token : Token) : r.answers token = u.answers token := by
  have htype : r.types[token]? = u.type? token := h.types token
  have hfield : r.fields[token]? = u.field? token := h.fields token
  have hmethod : r.methods[token]? = u.method? token := h.methods token
  have hsignature : r.signatures[token]? = u.signature? token := h.signatures token
  have hstring : r.strings.contains token = u.hasString token := by
    rw [Std.HashMap.contains_eq_isSome_getElem?, h.strings token]
    rfl
  simp only [answers, Universe.answers, Universe.entity?, htype, hfield, hmethod, hsignature,
    hstring, h.strings token]

theorem nextToken_eq (table : TokenTable) :
    (r.nextToken table).1 = table.token (u.rowCount table) := by
  simp only [nextToken, h.lastRow, TokenTable.token]
  rw [UInt32.ofNat_add]
  rfl

theorem getD_nextToken (table table' : TokenTable) :
    (r.nextToken table).2.lastRow.getD (UInt32.ofNat table'.number) 0 =
      UInt32.ofNat (u.rowCount table' + if table = table' then 1 else 0) := by
  simp only [nextToken, Std.HashMap.getD_insert, beq_iff_eq, ofNat_number_inj]
  by_cases hsame : table = table'
  · rw [if_pos hsame, if_pos hsame, hsame, h.lastRow, UInt32.ofNat_add]
    rfl
  · rw [if_neg hsame, if_neg hsame, h.lastRow, Nat.add_zero]

theorem lastRow_extend (e : Extension) (table : TokenTable) :
    (r.add e).2.lastRow.getD (UInt32.ofNat table.number) 0 =
      UInt32.ofNat ((u.extend e).rowCount table) := by
  rw [lastRow_add, Universe.rowCount_extend]
  cases he : e.table? with
  | none => simpa using h.lastRow table
  | some first => simpa using h.getD_nextToken first table

/-- **An extension is answered alike**, if its table has room. -/
theorem add {e : Extension}
    (hroom : ∀ table, e.table? = some table → u.rowCount table + 1 < TokenTable.rows) :
    (r.add e).1 = u.token? e ∧ (r.add e).2.Keeps (u.extend e) := by
  have hrows := h.lastRow_extend e
  cases e with
  | type ty =>
      have htoken := h.nextToken_eq .type
      exact ⟨congrArg some htoken, hrows, h.types.push (hroom _ rfl) htoken ty, h.fields, h.methods,
        h.signatures, h.strings⟩
  | field field =>
      have htoken := h.nextToken_eq .field
      exact ⟨congrArg some htoken, hrows, h.types, h.fields.push (hroom _ rfl) htoken field,
        h.methods, h.signatures, h.strings⟩
  | method method =>
      have htoken := h.nextToken_eq .method
      exact ⟨congrArg some htoken, hrows, h.types, h.fields,
        h.methods.push (hroom _ rfl) htoken method, h.signatures, h.strings⟩
  | signature signature =>
      have htoken := h.nextToken_eq .signature
      exact ⟨congrArg some htoken, hrows, h.types, h.fields, h.methods,
        h.signatures.push (hroom _ rfl) htoken signature, h.strings⟩
  | string value =>
      have htoken := h.nextToken_eq .string
      exact ⟨congrArg some htoken, hrows, h.types, h.fields, h.methods, h.signatures,
        h.strings.push (hroom _ rfl) htoken value⟩
  | _ => exact ⟨rfl, hrows, h.types, h.fields, h.methods, h.signatures, h.strings⟩

/-- A series of extensions is answered alike, if all tables have room for it. -/
theorem issue {extensions : List Extension}
    (hroom : ∀ table, (u.extendAll extensions).rowCount table < TokenTable.rows) :
    (r.issue extensions).1 = u.issued extensions ∧
      (r.issue extensions).2.Keeps (u.extendAll extensions) := by
  induction extensions generalizing r u with
  | nil => exact ⟨rfl, h⟩
  | cons e rest ih =>
      obtain ⟨htoken, hnext⟩ := h.add fun table htable =>
        Universe.rowCount_add_one_lt htable (hroom table)
      obtain ⟨htokens, hlast⟩ := ih hnext hroom
      refine ⟨?_, hlast⟩
      show ((r.add e).1.map (·, e)).toList ++ ((r.add e).2.issue rest).1 = _
      rw [htoken, htokens]
      rfl

end Keeps

/-- **Maps that are keyed by token do what arithmetic on tokens does.** Take any series of
extensions of the core that adds fewer rows to each table than a token can tell apart. It is
answered with the same tokens, and afterwards the same is found under every word. -/
theorem issue_core (extensions : List Extension)
    (hroom : ∀ table, extensions.countP (·.table? = some table) < TokenTable.rows) :
    (issue {} extensions).1 = Universe.core.issued extensions ∧
      ∀ token, (issue {} extensions).2.answers token =
        (Universe.core.extendAll extensions).answers token := by
  have hrows : ∀ table,
      (Universe.core.extendAll extensions).rowCount table < TokenTable.rows := by
    intro table
    rw [Universe.rowCount_extendAll_core]
    exact hroom table
  obtain ⟨htokens, hkeeps⟩ := keeps_core.issue hrows
  exact ⟨htokens, hkeeps.answers_eq⟩

end Registry

end ManagedCode
