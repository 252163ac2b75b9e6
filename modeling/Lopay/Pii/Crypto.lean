import Mathlib.Data.List.Basic
import Mathlib.Tactic.Common

/-!
# Personal data encrypted on its way to the database

`common/pii-crypto.ts` rewrites the arguments of every Prisma write before the query runs: wherever
a column named in `PII_FIELDS` is being written, its text is replaced by ciphertext. The walk is
over an untyped tree, and has to know every place where Prisma lets a relation write carry data.
-/

namespace Lopay.Pii

/-! ### The values of an argument tree -/

/-- A value of the tree. Objects are the plain ones only, entries in insertion order: `instance`
    stands for a `Date`, a `Decimal` or a `Buffer`, which `isPlainObject` refuses. -/
inductive Value where
  | undefined
  | null
  | bool (value : Bool)
  | number (value : Int)
  | string (text : String)
  | instance (name : String)
  | array (items : List Value)
  | object (entries : List (String × Value))

def PII_FIELDS : List String :=
  ["phoneNumber", "phone", "bankName", "accountName", "accountNumber"]

def WRITE_OPERATIONS : List String :=
  ["create", "createMany", "createManyAndReturn", "update", "updateMany", "updateManyAndReturn",
    "upsert"]

def isWriteOperation (operation : String) : Bool :=
  WRITE_OPERATIONS.contains operation

/-- `key in object`. -/
def hasKey (key : String) (entries : List (String × Value)) : Bool :=
  entries.any (·.1 == key)

@[simp] theorem hasKey_nil (key : String) : hasKey key [] = false := rfl

@[simp] theorem hasKey_cons (key : String) (entry : String × Value)
    (rest : List (String × Value)) :
    hasKey key (entry :: rest) = (entry.1 == key || hasKey key rest) := rfl

/-! ### The walk -/

section Walk

variable (encrypt : String → String)

/-- A text, or nothing to encrypt. -/
def encryptString : Value → Value
  | .string text => if text = "" then .string text else .string (encrypt text)
  | value => value

/-- The value written to a column of `PII_FIELDS`: the text itself or its `{ set: '...' }` form. -/
def encryptText : Value → Value
  | .object entries =>
      .object (entries.map fun entry =>
        if entry.1 = "set" then (entry.1, encryptString encrypt entry.2) else entry)
  | value => encryptString encrypt value

mutual

/-- Encrypt the PII texts of a `data` payload, through its nested relation writes. -/
def encryptWriteData : Value → Value
  | .array items => .array (encryptRows items)
  | .object entries => .object (encryptEntries entries)
  | value => value

def encryptRows : List Value → List Value
  | [] => []
  | item :: rest => encryptWriteData item :: encryptRows rest

def encryptEntries : List (String × Value) → List (String × Value)
  | [] => []
  | (key, value) :: rest =>
      (key, if key ∈ PII_FIELDS then encryptText encrypt value
        else encryptRelationWrite value) :: encryptEntries rest

/-- Recurse into the payloads of a relation write only. Each of the source's tests looks at a key
    of its own, so they are taken in the order in which the keys come. -/
def encryptRelationWrite : Value → Value
  | .array items => .array (encryptRelations items)
  | .object parts => .object (encryptParts parts)
  | value => value

def encryptRelations : List Value → List Value
  | [] => []
  | item :: rest => encryptRelationWrite item :: encryptRelations rest

def encryptParts : List (String × Value) → List (String × Value)
  | [] => []
  | (key, part) :: rest =>
      (key, match key with
        | "create" => encryptWriteData part
        | "update" => encryptUpdate part
        | "upsert" => encryptItems ["create", "update"] part
        | "connectOrCreate" => encryptItems ["create"] part
        | "createMany" => encryptItem ["data"] part
        | "updateMany" => encryptItems ["data"] part
        | _ => part) :: encryptParts rest

/-- `update` is looked into when it is an object: `{ where, data }`, or the data itself. -/
def encryptUpdate : Value → Value
  | .object entries =>
      if hasKey "data" entries then .object (encryptAt ["data"] entries)
      else .object (encryptEntries entries)
  | value => value

/-- `Array.isArray(x) ? x : [x]`, and then each of them. -/
def encryptItems (keys : List String) : Value → Value
  | .array items => .array (encryptEach keys items)
  | .object entries => .object (encryptAt keys entries)
  | value => value

def encryptEach (keys : List String) : List Value → List Value
  | [] => []
  | item :: rest => encryptItem keys item :: encryptEach keys rest

def encryptItem (keys : List String) : Value → Value
  | .object entries => .object (encryptAt keys entries)
  | value => value

def encryptAt (keys : List String) : List (String × Value) → List (String × Value)
  | [] => []
  | (key, value) :: rest =>
      (key, if key ∈ keys then encryptWriteData value else value) :: encryptAt keys rest

end

/-- Encrypt the PII of the write payloads of one Prisma operation. -/
def encryptPiiInArgs (operation : String) : Value → Value
  | .object args =>
      if !isWriteOperation operation then .object args
      else if operation = "upsert" then .object (encryptAt encrypt ["create", "update"] args)
      else .object (encryptAt encrypt ["data"] args)
  | args => args

end Walk


/-! ### Where the walk finds nothing -/

/-- No text to encrypt. -/
def stringless : Value → Prop
  | .string text => text = ""
  | _ => True

def textless : Value → Prop
  | .object entries => ∀ entry ∈ entries, entry.1 = "set" → stringless entry.2
  | value => stringless value

mutual

/-- Read as a `data` payload, the value holds no PII text. -/
def textlessData : Value → Prop
  | .array items => textlessRows items
  | .object entries => textlessEntries entries
  | _ => True

def textlessRows : List Value → Prop
  | [] => True
  | item :: rest => textlessData item ∧ textlessRows rest

def textlessEntries : List (String × Value) → Prop
  | [] => True
  | (key, value) :: rest =>
      (if key ∈ PII_FIELDS then textless value else textlessRelation value)
        ∧ textlessEntries rest

/-- Read as a relation write, the value holds no PII text. -/
def textlessRelation : Value → Prop
  | .array items => textlessRelations items
  | .object parts => textlessParts parts
  | _ => True

def textlessRelations : List Value → Prop
  | [] => True
  | item :: rest => textlessRelation item ∧ textlessRelations rest

def textlessParts : List (String × Value) → Prop
  | [] => True
  | (key, part) :: rest =>
      (match key with
        | "create" => textlessData part
        | "update" => textlessUpdate part
        | "upsert" => textlessItems ["create", "update"] part
        | "connectOrCreate" => textlessItems ["create"] part
        | "createMany" => textlessItem ["data"] part
        | "updateMany" => textlessItems ["data"] part
        | _ => True) ∧ textlessParts rest

def textlessUpdate : Value → Prop
  | .object entries =>
      if hasKey "data" entries then textlessAt ["data"] entries else textlessEntries entries
  | _ => True

def textlessItems (keys : List String) : Value → Prop
  | .array items => textlessEach keys items
  | .object entries => textlessAt keys entries
  | _ => True

def textlessEach (keys : List String) : List Value → Prop
  | [] => True
  | item :: rest => textlessItem keys item ∧ textlessEach keys rest

def textlessItem (keys : List String) : Value → Prop
  | .object entries => textlessAt keys entries
  | _ => True

def textlessAt (keys : List String) : List (String × Value) → Prop
  | [] => True
  | (key, value) :: rest =>
      (if key ∈ keys then textlessData value else True) ∧ textlessAt keys rest

end

section Untouched

variable {encrypt : String → String} (hcipher : ∀ text, encrypt text ≠ text)

include hcipher

set_option linter.unusedSectionVars false

theorem encryptString_eq_self (value : Value) :
    encryptString encrypt value = value ↔ stringless value := by
  cases value with
  | string text => by_cases h : text = "" <;> simp [encryptString, stringless, h, hcipher]
  | _ => simp [encryptString, stringless]

theorem encryptText_eq_self (value : Value) :
    encryptText encrypt value = value ↔ textless value := by
  cases value with
  | object entries =>
    simp only [encryptText, textless, Value.object.injEq]
    conv_lhs => rhs; rw [← List.map_id entries]
    rw [List.map_inj_left]
    refine forall₂_congr fun entry _ => ?_
    by_cases h : entry.1 = "set"
    · simp [h, Prod.ext_iff, encryptString_eq_self hcipher]
    · simp [h]
  | _ =>
    simp only [encryptText, textless]
    exact encryptString_eq_self hcipher _

mutual

theorem encryptWriteData_eq_self : ∀ value,
    encryptWriteData encrypt value = value ↔ textlessData value
  | .array items => by
      simp [encryptWriteData, textlessData, encryptRows_eq_self items]
  | .object entries => by
      simp [encryptWriteData, textlessData, encryptEntries_eq_self entries]
  | .undefined | .null | .bool _ | .number _ | .string _ | .instance _ => by
      simp [encryptWriteData, textlessData]

theorem encryptRows_eq_self : ∀ items, encryptRows encrypt items = items ↔ textlessRows items
  | [] => by simp [encryptRows, textlessRows]
  | item :: rest => by
      simp [encryptRows, textlessRows, encryptWriteData_eq_self item, encryptRows_eq_self rest]

theorem encryptEntries_eq_self : ∀ entries,
    encryptEntries encrypt entries = entries ↔ textlessEntries entries
  | [] => by simp [encryptEntries, textlessEntries]
  | (key, value) :: rest => by
      have hvalue := encryptRelationWrite_eq_self value
      have htext := encryptText_eq_self hcipher value
      have hrest := encryptEntries_eq_self rest
      by_cases hkey : key ∈ PII_FIELDS <;>
        simp [encryptEntries, textlessEntries, hkey, hvalue, htext, hrest]

theorem encryptRelationWrite_eq_self : ∀ value,
    encryptRelationWrite encrypt value = value ↔ textlessRelation value
  | .array items => by
      simp [encryptRelationWrite, textlessRelation, encryptRelations_eq_self items]
  | .object parts => by
      simp [encryptRelationWrite, textlessRelation, encryptParts_eq_self parts]
  | .undefined | .null | .bool _ | .number _ | .string _ | .instance _ => by
      simp [encryptRelationWrite, textlessRelation]

theorem encryptRelations_eq_self : ∀ items,
    encryptRelations encrypt items = items ↔ textlessRelations items
  | [] => by simp [encryptRelations, textlessRelations]
  | item :: rest => by
      simp [encryptRelations, textlessRelations, encryptRelationWrite_eq_self item,
        encryptRelations_eq_self rest]

theorem encryptParts_eq_self : ∀ parts,
    encryptParts encrypt parts = parts ↔ textlessParts parts
  | [] => by simp [encryptParts, textlessParts]
  | (key, part) :: rest => by
      have hdata := encryptWriteData_eq_self part
      have hupdate := encryptUpdate_eq_self part
      have hitems := fun keys => encryptItems_eq_self keys part
      have hitem := fun keys => encryptItem_eq_self keys part
      have hrest := encryptParts_eq_self rest
      simp only [encryptParts, textlessParts, List.cons.injEq, Prod.mk.injEq, true_and, hrest]
      split <;> simp [hdata, hupdate, hitems, hitem]

theorem encryptUpdate_eq_self : ∀ value,
    encryptUpdate encrypt value = value ↔ textlessUpdate value
  | .object entries => by
      have hat := encryptAt_eq_self ["data"] entries
      have hentries := encryptEntries_eq_self entries
      by_cases hdata : hasKey "data" entries = true <;>
        simp [encryptUpdate, textlessUpdate, hdata, hat, hentries]
  | .undefined | .null | .bool _ | .number _ | .string _ | .instance _ | .array _ => by
      simp [encryptUpdate, textlessUpdate]

theorem encryptItems_eq_self (keys : List String) : ∀ value,
    encryptItems encrypt keys value = value ↔ textlessItems keys value
  | .array items => by simp [encryptItems, textlessItems, encryptEach_eq_self keys items]
  | .object entries => by simp [encryptItems, textlessItems, encryptAt_eq_self keys entries]
  | .undefined | .null | .bool _ | .number _ | .string _ | .instance _ => by
      simp [encryptItems, textlessItems]

theorem encryptEach_eq_self (keys : List String) : ∀ items,
    encryptEach encrypt keys items = items ↔ textlessEach keys items
  | [] => by simp [encryptEach, textlessEach]
  | item :: rest => by
      simp [encryptEach, textlessEach, encryptItem_eq_self keys item,
        encryptEach_eq_self keys rest]

theorem encryptItem_eq_self (keys : List String) : ∀ value,
    encryptItem encrypt keys value = value ↔ textlessItem keys value
  | .object entries => by simp [encryptItem, textlessItem, encryptAt_eq_self keys entries]
  | .undefined | .null | .bool _ | .number _ | .string _ | .instance _ | .array _ => by
      simp [encryptItem, textlessItem]

theorem encryptAt_eq_self (keys : List String) : ∀ entries,
    encryptAt encrypt keys entries = entries ↔ textlessAt keys entries
  | [] => by simp [encryptAt, textlessAt]
  | (key, value) :: rest => by
      have hdata := encryptWriteData_eq_self value
      have hrest := encryptAt_eq_self keys rest
      by_cases hkey : key ∈ keys <;> simp [encryptAt, textlessAt, hkey, hdata, hrest]

end

end Untouched

end Lopay.Pii
