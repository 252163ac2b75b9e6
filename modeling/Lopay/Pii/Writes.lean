import Lopay.Pii.Crypto

/-!
# What Prisma accepts as a write

The trees `encryptPiiInArgs` is meant for, as a language of their own: data objects whose fields are
columns and relation writes, and for each relation write the forms Prisma takes, alone or as an
array. What a write should become is said on that language, place by place, and does not know how
the walk goes about it.
-/

namespace Lopay.Pii

/-! ### The language -/

/-- The columns kept encrypted. -/
inductive PiiField where
  | phoneNumber
  | phone
  | bankName
  | accountName
  | accountNumber

def PiiField.name : PiiField → String
  | .phoneNumber => "phoneNumber"
  | .phone => "phone"
  | .bankName => "bankName"
  | .accountName => "accountName"
  | .accountNumber => "accountNumber"

theorem PiiField.name_mem (field : PiiField) : field.name ∈ PII_FIELDS := by
  cases field <;> decide

/-- Any other field of the schema, a column or a relation. No model has one called `data`. -/
structure FieldName where
  name : String
  clear : name ∉ PII_FIELDS
  model : name ≠ "data"

/-- What may be written to a nullable text column. -/
inductive TextWrite where
  | omitted
  | null
  | text (content : String)
  | set (content : String)
  | setNull

/-- The relation writes that only point at rows. -/
inductive Pointer where
  | connect
  | disconnect
  | set
  | delete
  | deleteMany

def Pointer.key : Pointer → String
  | .connect => "connect"
  | .disconnect => "disconnect"
  | .set => "set"
  | .delete => "delete"
  | .deleteMany => "deleteMany"

mutual

/-- A data object, field by field. A column outside `PiiField` takes any value, JSON included. -/
inductive WriteData where
  | done
  | pii (field : PiiField) (value : TextWrite) (rest : WriteData)
  | column (field : FieldName) (value : Value) (rest : WriteData)
  | relation (field : FieldName) (writes : RelationWrites) (rest : WriteData)

/-- What is written through one relation. The forms named `Each` are those with an array. -/
inductive RelationWrites where
  | done
  | create (data : WriteData) (rest : RelationWrites)
  | createEach (rows : DataRows) (rest : RelationWrites)
  | createMany (data : WriteData) (skipDuplicates : Value) (rest : RelationWrites)
  | createManyEach (rows : DataRows) (skipDuplicates : Value) (rest : RelationWrites)
  | connectOrCreate (filter : Value) (data : WriteData) (rest : RelationWrites)
  | connectOrCreateEach (rows : FilteredRows) (rest : RelationWrites)
  | upsert (filter : Value) (create update : WriteData) (rest : RelationWrites)
  | upsertEach (rows : UpsertRows) (rest : RelationWrites)
  | update (data : WriteData) (rest : RelationWrites)
  | updateWhere (filter : Value) (data : WriteData) (rest : RelationWrites)
  | updateEach (rows : FilteredRows) (rest : RelationWrites)
  | updateMany (filter : Value) (data : WriteData) (rest : RelationWrites)
  | updateManyEach (rows : FilteredRows) (rest : RelationWrites)
  | pointer (pointer : Pointer) (value : Value) (rest : RelationWrites)

inductive DataRows where
  | done
  | row (data : WriteData) (rest : DataRows)

inductive FilteredRows where
  | done
  | row (filter : Value) (data : WriteData) (rest : FilteredRows)

inductive UpsertRows where
  | done
  | row (filter : Value) (create update : WriteData) (rest : UpsertRows)

end

/-- The operations whose payload is `data`. -/
inductive RowOperation where
  | create
  | createMany
  | createManyAndReturn
  | update
  | updateMany
  | updateManyAndReturn

/-- What stands beside the payload of an operation. -/
inductive Aside where
  | filter
  | select
  | nested
  | omit
  | skipDuplicates
  | limit

/-- A write operation with its arguments. -/
inductive WriteCall where
  | data (operation : RowOperation) (payload : WriteData) (asides : List (Aside × Value))
  | dataEach (operation : RowOperation) (payload : DataRows) (asides : List (Aside × Value))
  | upsert (create update : WriteData) (asides : List (Aside × Value))

/-! ### How it is spelled -/

def TextWrite.value : TextWrite → Value
  | .omitted => .undefined
  | .null => .null
  | .text content => .string content
  | .set content => .object [("set", .string content)]
  | .setNull => .object [("set", .null)]

mutual

def WriteData.entries : WriteData → List (String × Value)
  | .done => []
  | .pii field value rest => (field.name, value.value) :: rest.entries
  | .column field value rest => (field.name, value) :: rest.entries
  | .relation field writes rest => (field.name, .object writes.parts) :: rest.entries

def RelationWrites.parts : RelationWrites → List (String × Value)
  | .done => []
  | .create data rest => ("create", .object data.entries) :: rest.parts
  | .createEach rows rest => ("create", .array rows.items) :: rest.parts
  | .createMany data skip rest =>
      ("createMany", .object [("data", .object data.entries), ("skipDuplicates", skip)])
        :: rest.parts
  | .createManyEach rows skip rest =>
      ("createMany", .object [("data", .array rows.items), ("skipDuplicates", skip)]) :: rest.parts
  | .connectOrCreate filter data rest =>
      ("connectOrCreate", .object [("where", filter), ("create", .object data.entries)])
        :: rest.parts
  | .connectOrCreateEach rows rest =>
      ("connectOrCreate", .array (rows.items "create")) :: rest.parts
  | .upsert filter create update rest =>
      ("upsert", .object [("where", filter), ("create", .object create.entries),
        ("update", .object update.entries)]) :: rest.parts
  | .upsertEach rows rest => ("upsert", .array rows.items) :: rest.parts
  | .update data rest => ("update", .object data.entries) :: rest.parts
  | .updateWhere filter data rest =>
      ("update", .object [("where", filter), ("data", .object data.entries)]) :: rest.parts
  | .updateEach rows rest => ("update", .array (rows.items "data")) :: rest.parts
  | .updateMany filter data rest =>
      ("updateMany", .object [("where", filter), ("data", .object data.entries)]) :: rest.parts
  | .updateManyEach rows rest => ("updateMany", .array (rows.items "data")) :: rest.parts
  | .pointer pointer value rest => (pointer.key, value) :: rest.parts

def DataRows.items : DataRows → List Value
  | .done => []
  | .row data rest => .object data.entries :: rest.items

def FilteredRows.items (key : String) : FilteredRows → List Value
  | .done => []
  | .row filter data rest =>
      .object [("where", filter), (key, .object data.entries)] :: rest.items key

def UpsertRows.items : UpsertRows → List Value
  | .done => []
  | .row filter create update rest =>
      .object [("where", filter), ("create", .object create.entries),
        ("update", .object update.entries)] :: rest.items

end

def RowOperation.name : RowOperation → String
  | .create => "create"
  | .createMany => "createMany"
  | .createManyAndReturn => "createManyAndReturn"
  | .update => "update"
  | .updateMany => "updateMany"
  | .updateManyAndReturn => "updateManyAndReturn"

def Aside.key : Aside → String
  | .filter => "where"
  | .select => "select"
  | .nested => "include"
  | .omit => "omit"
  | .skipDuplicates => "skipDuplicates"
  | .limit => "limit"

def WriteCall.operation : WriteCall → String
  | .data operation _ _ | .dataEach operation _ _ => operation.name
  | .upsert _ _ _ => "upsert"

def besides (asides : List (Aside × Value)) : List (String × Value) :=
  asides.map fun entry => (entry.1.key, entry.2)

def WriteCall.args : WriteCall → Value
  | .data _ payload asides => .object (("data", .object payload.entries) :: besides asides)
  | .dataEach _ payload asides => .object (("data", .array payload.items) :: besides asides)
  | .upsert create update asides =>
      .object (("create", .object create.entries) :: ("update", .object update.entries)
        :: besides asides)

/-! ### What it should become -/

section Encrypted

variable (encrypt : String → String)

def encryptedText (content : String) : String :=
  if content = "" then content else encrypt content

def TextWrite.encrypted : TextWrite → TextWrite
  | .text content => .text (encryptedText encrypt content)
  | .set content => .set (encryptedText encrypt content)
  | value => value

mutual

/-- The same write with its PII texts encrypted, at any depth, and nothing else changed. -/
def WriteData.encrypted : WriteData → WriteData
  | .done => .done
  | .pii field value rest => .pii field (value.encrypted encrypt) rest.encrypted
  | .column field value rest => .column field value rest.encrypted
  | .relation field writes rest => .relation field writes.encrypted rest.encrypted

def RelationWrites.encrypted : RelationWrites → RelationWrites
  | .done => .done
  | .create data rest => .create data.encrypted rest.encrypted
  | .createEach rows rest => .createEach rows.encrypted rest.encrypted
  | .createMany data skip rest => .createMany data.encrypted skip rest.encrypted
  | .createManyEach rows skip rest => .createManyEach rows.encrypted skip rest.encrypted
  | .connectOrCreate filter data rest => .connectOrCreate filter data.encrypted rest.encrypted
  | .connectOrCreateEach rows rest => .connectOrCreateEach rows.encrypted rest.encrypted
  | .upsert filter create update rest =>
      .upsert filter create.encrypted update.encrypted rest.encrypted
  | .upsertEach rows rest => .upsertEach rows.encrypted rest.encrypted
  | .update data rest => .update data.encrypted rest.encrypted
  | .updateWhere filter data rest => .updateWhere filter data.encrypted rest.encrypted
  | .updateEach rows rest => .updateEach rows.encrypted rest.encrypted
  | .updateMany filter data rest => .updateMany filter data.encrypted rest.encrypted
  | .updateManyEach rows rest => .updateManyEach rows.encrypted rest.encrypted
  | .pointer pointer value rest => .pointer pointer value rest.encrypted

def DataRows.encrypted : DataRows → DataRows
  | .done => .done
  | .row data rest => .row data.encrypted rest.encrypted

def FilteredRows.encrypted : FilteredRows → FilteredRows
  | .done => .done
  | .row filter data rest => .row filter data.encrypted rest.encrypted

def UpsertRows.encrypted : UpsertRows → UpsertRows
  | .done => .done
  | .row filter create update rest =>
      .row filter create.encrypted update.encrypted rest.encrypted

end

def WriteCall.encrypted : WriteCall → WriteCall
  | .data operation payload asides => .data operation (payload.encrypted encrypt) asides
  | .dataEach operation payload asides => .dataEach operation (payload.encrypted encrypt) asides
  | .upsert create update asides =>
      .upsert (create.encrypted encrypt) (update.encrypted encrypt) asides

end Encrypted

/-! ### Where the texts are -/

/-- No text is written. -/
def TextWrite.Textless : TextWrite → Prop
  | .text content | .set content => content = ""
  | _ => True

mutual

/-- No PII text is written, at any depth. -/
def WriteData.Textless : WriteData → Prop
  | .done => True
  | .pii _ value rest => value.Textless ∧ rest.Textless
  | .column _ _ rest => rest.Textless
  | .relation _ writes rest => writes.Textless ∧ rest.Textless

def RelationWrites.Textless : RelationWrites → Prop
  | .done => True
  | .create data rest | .createMany data _ rest | .connectOrCreate _ data rest
  | .update data rest | .updateWhere _ data rest | .updateMany _ data rest =>
      data.Textless ∧ rest.Textless
  | .createEach rows rest | .createManyEach rows _ rest => rows.Textless ∧ rest.Textless
  | .connectOrCreateEach rows rest | .updateEach rows rest | .updateManyEach rows rest =>
      rows.Textless ∧ rest.Textless
  | .upsert _ create update rest => create.Textless ∧ update.Textless ∧ rest.Textless
  | .upsertEach rows rest => rows.Textless ∧ rest.Textless
  | .pointer _ _ rest => rest.Textless

def DataRows.Textless : DataRows → Prop
  | .done => True
  | .row data rest => data.Textless ∧ rest.Textless

def FilteredRows.Textless : FilteredRows → Prop
  | .done => True
  | .row _ data rest => data.Textless ∧ rest.Textless

def UpsertRows.Textless : UpsertRows → Prop
  | .done => True
  | .row _ create update rest => create.Textless ∧ update.Textless ∧ rest.Textless

end

mutual

/-- Every PII text is written where the walk looks, and nowhere else does it find one: an `update`
    given as an array holds none, and neither does a JSON value when it is read as a relation
    write. -/
def WriteData.Reached : WriteData → Prop
  | .done => True
  | .pii _ _ rest => rest.Reached
  | .column _ value rest => textlessRelation value ∧ rest.Reached
  | .relation _ writes rest => writes.Reached ∧ rest.Reached

def RelationWrites.Reached : RelationWrites → Prop
  | .done => True
  | .create data rest | .createMany data _ rest | .connectOrCreate _ data rest
  | .update data rest | .updateWhere _ data rest | .updateMany _ data rest =>
      data.Reached ∧ rest.Reached
  | .createEach rows rest | .createManyEach rows _ rest => rows.Reached ∧ rest.Reached
  | .updateEach rows rest => rows.Textless ∧ rest.Reached
  | .connectOrCreateEach rows rest | .updateManyEach rows rest => rows.Reached ∧ rest.Reached
  | .upsert _ create update rest => create.Reached ∧ update.Reached ∧ rest.Reached
  | .upsertEach rows rest => rows.Reached ∧ rest.Reached
  | .pointer _ _ rest => rest.Reached

def DataRows.Reached : DataRows → Prop
  | .done => True
  | .row data rest => data.Reached ∧ rest.Reached

def FilteredRows.Reached : FilteredRows → Prop
  | .done => True
  | .row _ data rest => data.Reached ∧ rest.Reached

def UpsertRows.Reached : UpsertRows → Prop
  | .done => True
  | .row _ create update rest => create.Reached ∧ update.Reached ∧ rest.Reached

end

def WriteCall.Reached : WriteCall → Prop
  | .data _ payload _ => payload.Reached
  | .dataEach _ payload _ => payload.Reached
  | .upsert create update _ => create.Reached ∧ update.Reached

section Comparison

variable {encrypt : String → String} (hcipher : ∀ text, encrypt text ≠ text)

include hcipher

set_option linter.unusedSectionVars false

theorem TextWrite.encrypted_value (value : TextWrite) :
    (value.encrypted encrypt).value = value.value ↔ value.Textless := by
  cases value with
  | text content | set content =>
    by_cases h : content = "" <;>
      simp [TextWrite.encrypted, TextWrite.value, TextWrite.Textless, encryptedText, h, hcipher]
  | _ => simp [TextWrite.encrypted, TextWrite.value, TextWrite.Textless]

mutual

theorem WriteData.encrypted_entries : ∀ data : WriteData,
    (data.encrypted encrypt).entries = data.entries ↔ data.Textless
  | .done => by simp [WriteData.encrypted, WriteData.entries, WriteData.Textless]
  | .pii field value rest => by
      simp [WriteData.encrypted, WriteData.entries, WriteData.Textless,
        TextWrite.encrypted_value hcipher, rest.encrypted_entries]
  | .column field value rest => by
      simp [WriteData.encrypted, WriteData.entries, WriteData.Textless, rest.encrypted_entries]
  | .relation field writes rest => by
      simp [WriteData.encrypted, WriteData.entries, WriteData.Textless,
        writes.encrypted_parts, rest.encrypted_entries]

theorem RelationWrites.encrypted_parts : ∀ writes : RelationWrites,
    (writes.encrypted encrypt).parts = writes.parts ↔ writes.Textless
  | .done => by simp [RelationWrites.encrypted, RelationWrites.parts, RelationWrites.Textless]
  | .create data rest | .createMany data _ rest | .connectOrCreate _ data rest
  | .update data rest | .updateWhere _ data rest | .updateMany _ data rest => by
      simp [RelationWrites.encrypted, RelationWrites.parts, RelationWrites.Textless,
        data.encrypted_entries, rest.encrypted_parts]
  | .createEach rows rest | .createManyEach rows _ rest => by
      simp [RelationWrites.encrypted, RelationWrites.parts, RelationWrites.Textless,
        rows.encrypted_items, rest.encrypted_parts]
  | .connectOrCreateEach rows rest | .updateEach rows rest | .updateManyEach rows rest => by
      simp [RelationWrites.encrypted, RelationWrites.parts, RelationWrites.Textless,
        rows.encrypted_items, rest.encrypted_parts]
  | .upsert _ create update rest => by
      simp [RelationWrites.encrypted, RelationWrites.parts, RelationWrites.Textless,
        create.encrypted_entries, update.encrypted_entries, rest.encrypted_parts, and_assoc]
  | .upsertEach rows rest => by
      simp [RelationWrites.encrypted, RelationWrites.parts, RelationWrites.Textless,
        rows.encrypted_items, rest.encrypted_parts]
  | .pointer _ _ rest => by
      simp [RelationWrites.encrypted, RelationWrites.parts, RelationWrites.Textless,
        rest.encrypted_parts]

theorem DataRows.encrypted_items : ∀ rows : DataRows,
    (rows.encrypted encrypt).items = rows.items ↔ rows.Textless
  | .done => by simp [DataRows.encrypted, DataRows.items, DataRows.Textless]
  | .row data rest => by
      simp [DataRows.encrypted, DataRows.items, DataRows.Textless, data.encrypted_entries,
        rest.encrypted_items]

theorem FilteredRows.encrypted_items {key : String} : ∀ rows : FilteredRows,
    (rows.encrypted encrypt).items key = rows.items key ↔ rows.Textless
  | .done => by simp [FilteredRows.encrypted, FilteredRows.items, FilteredRows.Textless]
  | .row filter data rest => by
      simp [FilteredRows.encrypted, FilteredRows.items, FilteredRows.Textless,
        data.encrypted_entries, rest.encrypted_items]

theorem UpsertRows.encrypted_items : ∀ rows : UpsertRows,
    (rows.encrypted encrypt).items = rows.items ↔ rows.Textless
  | .done => by simp [UpsertRows.encrypted, UpsertRows.items, UpsertRows.Textless]
  | .row filter create update rest => by
      simp [UpsertRows.encrypted, UpsertRows.items, UpsertRows.Textless,
        create.encrypted_entries, update.encrypted_entries, rest.encrypted_items, and_assoc]

end

/-! ### What the walk makes of a write -/

omit hcipher in
theorem encryptText_value (value : TextWrite) :
    encryptText encrypt value.value = (value.encrypted encrypt).value := by
  cases value with
  | text content | set content =>
    by_cases h : content = "" <;>
      simp [encryptText, encryptString, TextWrite.encrypted, TextWrite.value, encryptedText, h]
  | _ => simp [encryptText, encryptString, TextWrite.encrypted, TextWrite.value]

omit hcipher in
theorem WriteData.not_hasKey : ∀ data : WriteData, hasKey "data" data.entries = false
  | .done => by simp [WriteData.entries]
  | .pii field _ rest => by
      cases field <;> simp [WriteData.entries, PiiField.name, rest.not_hasKey]
  | .column field _ rest | .relation field _ rest => by
      simp [WriteData.entries, field.model, rest.not_hasKey]

mutual

/-- The walk over a data object is what it should be exactly when the texts are where it looks. -/
theorem WriteData.walked : ∀ data : WriteData,
    encryptEntries encrypt data.entries = (data.encrypted encrypt).entries ↔ data.Reached
  | .done => by simp [encryptEntries, WriteData.encrypted, WriteData.entries, WriteData.Reached]
  | .pii field value rest => by
      simp [encryptEntries, WriteData.encrypted, WriteData.entries, WriteData.Reached,
        field.name_mem, encryptText_value, rest.walked]
  | .column field value rest => by
      simp [encryptEntries, WriteData.encrypted, WriteData.entries, WriteData.Reached,
        field.clear, encryptRelationWrite_eq_self hcipher, rest.walked]
  | .relation field writes rest => by
      simp [encryptEntries, encryptRelationWrite, WriteData.encrypted, WriteData.entries,
        WriteData.Reached, field.clear, writes.walked, rest.walked]

theorem RelationWrites.walked : ∀ writes : RelationWrites,
    encryptParts encrypt writes.parts = (writes.encrypted encrypt).parts ↔ writes.Reached
  | .done => by
      simp [encryptParts, RelationWrites.encrypted, RelationWrites.parts, RelationWrites.Reached]
  | .create data rest => by
      simp [encryptParts, encryptWriteData, RelationWrites.encrypted, RelationWrites.parts,
        RelationWrites.Reached, data.walked, rest.walked]
  | .createEach rows rest => by
      simp [encryptParts, encryptWriteData, RelationWrites.encrypted, RelationWrites.parts,
        RelationWrites.Reached, rows.walked, rest.walked]
  | .createMany data _ rest => by
      simp [encryptParts, encryptItem, encryptAt, encryptWriteData, RelationWrites.encrypted,
        RelationWrites.parts, RelationWrites.Reached, data.walked, rest.walked]
  | .createManyEach rows _ rest => by
      simp [encryptParts, encryptItem, encryptAt, encryptWriteData, RelationWrites.encrypted,
        RelationWrites.parts, RelationWrites.Reached, rows.walked, rest.walked]
  | .connectOrCreate _ data rest | .updateMany _ data rest => by
      simp [encryptParts, encryptItems, encryptAt, encryptWriteData, RelationWrites.encrypted,
        RelationWrites.parts, RelationWrites.Reached, data.walked, rest.walked]
  | .connectOrCreateEach rows rest | .updateManyEach rows rest => by
      simp [encryptParts, encryptItems, RelationWrites.encrypted, RelationWrites.parts,
        RelationWrites.Reached, rows.walked, rest.walked]
  | .upsert _ create update rest => by
      simp [encryptParts, encryptItems, encryptAt, encryptWriteData, RelationWrites.encrypted,
        RelationWrites.parts, RelationWrites.Reached, create.walked, update.walked, rest.walked,
        and_assoc]
  | .upsertEach rows rest => by
      simp [encryptParts, encryptItems, RelationWrites.encrypted, RelationWrites.parts,
        RelationWrites.Reached, rows.walked, rest.walked]
  | .update data rest => by
      simp [encryptParts, encryptUpdate, data.not_hasKey, RelationWrites.encrypted,
        RelationWrites.parts, RelationWrites.Reached, data.walked, rest.walked]
  | .updateWhere _ data rest => by
      simp [encryptParts, encryptUpdate, encryptAt, encryptWriteData,
        RelationWrites.encrypted, RelationWrites.parts, RelationWrites.Reached, data.walked,
        rest.walked]
  | .updateEach rows rest => by
      -- The array is left as it came, so it is right only where there was nothing to encrypt.
      simp [encryptParts, encryptUpdate, RelationWrites.encrypted, RelationWrites.parts,
        RelationWrites.Reached, eq_comm (a := rows.items "data"),
        rows.encrypted_items hcipher, rest.walked]
  | .pointer pointer _ rest => by
      cases pointer <;>
        simp [encryptParts, RelationWrites.encrypted, RelationWrites.parts,
          RelationWrites.Reached, Pointer.key, rest.walked]

theorem DataRows.walked : ∀ rows : DataRows,
    encryptRows encrypt rows.items = (rows.encrypted encrypt).items ↔ rows.Reached
  | .done => by simp [encryptRows, DataRows.encrypted, DataRows.items, DataRows.Reached]
  | .row data rest => by
      simp [encryptRows, encryptWriteData, DataRows.encrypted, DataRows.items, DataRows.Reached,
        data.walked, rest.walked]

theorem FilteredRows.walked {key : String} (hkey : key ≠ "where") : ∀ rows : FilteredRows,
    encryptEach encrypt [key] (rows.items key) = (rows.encrypted encrypt).items key ↔ rows.Reached
  | .done => by simp [encryptEach, FilteredRows.encrypted, FilteredRows.items, FilteredRows.Reached]
  | .row filter data rest => by
      simp [encryptEach, encryptItem, encryptAt, encryptWriteData, FilteredRows.encrypted,
        FilteredRows.items, FilteredRows.Reached, hkey.symm, data.walked, rest.walked hkey]

theorem UpsertRows.walked : ∀ rows : UpsertRows,
    encryptEach encrypt ["create", "update"] rows.items = (rows.encrypted encrypt).items
      ↔ rows.Reached
  | .done => by simp [encryptEach, UpsertRows.encrypted, UpsertRows.items, UpsertRows.Reached]
  | .row filter create update rest => by
      simp [encryptEach, encryptItem, encryptAt, encryptWriteData, UpsertRows.encrypted,
        UpsertRows.items, UpsertRows.Reached, create.walked, update.walked, rest.walked, and_assoc]

end

omit hcipher in
theorem encryptAt_besides {keys : List String} (hkeys : ∀ aside : Aside, aside.key ∉ keys)
    (asides : List (Aside × Value)) : encryptAt encrypt keys (besides asides) = besides asides := by
  induction asides with
  | nil => simp [besides, encryptAt]
  | cons entry rest ih =>
    simp only [besides, List.map_cons] at ih ⊢
    simp [encryptAt, hkeys, ih]

omit hcipher in
theorem encryptPiiInArgs_rows (operation : RowOperation) (args : List (String × Value)) :
    encryptPiiInArgs encrypt operation.name (.object args)
      = .object (encryptAt encrypt ["data"] args) := by
  cases operation <;> rfl

omit hcipher in
theorem encryptPiiInArgs_upsert (args : List (String × Value)) :
    encryptPiiInArgs encrypt "upsert" (.object args)
      = .object (encryptAt encrypt ["create", "update"] args) := rfl

/-- Over every write Prisma accepts: the query runs with the write as it should be, every PII text
    encrypted and the rest unchanged, exactly when no nested `update` in its array form holds a
    PII text and no JSON value is mistaken for a relation write that does. -/
theorem encryptPiiInArgs_encrypted (call : WriteCall) :
    encryptPiiInArgs encrypt call.operation call.args = (call.encrypted encrypt).args
      ↔ call.Reached := by
  have hdata : ∀ aside : Aside, aside.key ∉ ["data"] := by rintro ⟨⟩ <;> decide
  have hupsert : ∀ aside : Aside, aside.key ∉ ["create", "update"] := by rintro ⟨⟩ <;> decide
  cases call with
  | data operation payload asides =>
    rw [WriteCall.args, WriteCall.operation, encryptPiiInArgs_rows]
    simp [encryptAt, encryptWriteData, encryptAt_besides hdata, WriteCall.encrypted,
      WriteCall.args, WriteCall.Reached, payload.walked hcipher]
  | dataEach operation payload asides =>
    rw [WriteCall.args, WriteCall.operation, encryptPiiInArgs_rows]
    simp [encryptAt, encryptWriteData, encryptAt_besides hdata, WriteCall.encrypted,
      WriteCall.args, WriteCall.Reached, payload.walked hcipher]
  | upsert create update asides =>
    rw [WriteCall.args, WriteCall.operation, encryptPiiInArgs_upsert]
    simp [encryptAt, encryptWriteData, encryptAt_besides hupsert, WriteCall.encrypted,
      WriteCall.args, WriteCall.Reached, create.walked hcipher, update.walked hcipher]

end Comparison

/-- A cipher good enough to run: the nonce, then the text. -/
def nonced (text : String) : String := "AAAAAAAAAAAAAAAA" ++ text

theorem nonced_ne (text : String) : nonced text ≠ text := by
  intro h
  simpa [nonced] using congrArg String.length h

def invites : FieldName := ⟨"invites", by decide, by decide⟩

def newNumber : WriteData := .pii .phoneNumber (.text "+2348012345678") .done

/-- A school's account and the number on one of its invites, in one write. -/
def correctedSchool : WriteCall :=
  .data .update
    (.pii .accountNumber (.set "0123456789")
      (.relation invites (.updateWhere (.object [("id", .string "i1")]) newNumber .done) .done))
    [(.filter, .object [("id", .string "s1")])]

theorem encryptPiiInArgs_encrypted_school :
    encryptPiiInArgs nonced correctedSchool.operation correctedSchool.args
      = (correctedSchool.encrypted nonced).args :=
  (encryptPiiInArgs_encrypted nonced_ne correctedSchool).2 (by
    simp [correctedSchool, WriteCall.Reached, WriteData.Reached, RelationWrites.Reached, newNumber])

/-- The same number, in the array form of `update`. -/
def correctedInvites : WriteCall :=
  .data .update
    (.relation invites
      (.updateEach (.row (.object [("id", .string "i1")]) newNumber .done) .done) .done)
    [(.filter, .object [("id", .string "s1")])]

theorem encryptPiiInArgs_misses_update_array :
    encryptPiiInArgs nonced correctedInvites.operation correctedInvites.args
        = correctedInvites.args
      ∧ encryptPiiInArgs nonced correctedInvites.operation correctedInvites.args
        ≠ (correctedInvites.encrypted nonced).args := by
  have huntouched : encryptPiiInArgs nonced correctedInvites.operation correctedInvites.args
      = correctedInvites.args := rfl
  refine ⟨huntouched, ?_⟩
  rw [huntouched]
  simp [correctedInvites, WriteCall.encrypted, WriteData.encrypted, RelationWrites.encrypted,
    FilteredRows.encrypted, TextWrite.encrypted, encryptedText, newNumber, WriteCall.args,
    WriteData.entries, RelationWrites.parts, FilteredRows.items, TextWrite.value,
    (nonced_ne _).symm]

end Lopay.Pii
