import Lopay.Transactions.Table
import Lopay.Users.Phone

/-!
# The phone index and the phone

Three ways lead into a user's row: the two Better Auth hooks of `auth/signup-guard.ts`, and the
profile edit of `users/users.service.ts`. Each derives `phoneHash` from the number it was given, in
its own way, and the database keeps the hashes apart.
-/

namespace Lopay.Users

open Transactions Text

/-! ### The table -/

structure User where
  name : Option String
  fullName : Option String
  phoneNumber : Option String
  phoneHash : Option String
  isDeleted : Bool
deriving DecidableEq, Repr

/-- No two rows under one hash: the unique index, which lets any number of nulls through. -/
def Distinct (users : Table String User) : Prop :=
  ∀ id id' user user', users.lookup id = some user → users.lookup id' = some user' →
    user.phoneHash ≠ none → user.phoneHash = user'.phoneHash → id = id'

/-- The users, with their unique index. -/
structure Directory where
  users : Table String User
  distinct : Distinct users

inductive AuthErrorCode where
  | NAME_REQUIRED
  | NAME_LENGTH
  | PHONE_INVALID
  | PHONE_ALREADY_REGISTERED
deriving DecidableEq, Repr

def MAX_NAME_LENGTH : Nat := 80

def AUTH_ERROR_MESSAGES : AuthErrorCode → String
  | .NAME_REQUIRED => "Enter your full name."
  | .NAME_LENGTH => s!"Your name must be between 2 and {MAX_NAME_LENGTH} characters."
  | .PHONE_INVALID =>
      "Enter your 11-digit phone number, starting with 0 (e.g. 08012345678)."
  | .PHONE_ALREADY_REGISTERED => "This phone number is already linked to another account."

/-- How a request is refused: by its code, by a missing user, by the unique index, or by a null
    where the source expects a string. -/
inductive Failure where
  | coded (status : Nat) (code : AuthErrorCode) (message : String)
  | notFound (message : String)
  | uniqueConstraint
  | typeError
deriving DecidableEq, Repr

def reject (status : Nat) (code : AuthErrorCode) : Failure :=
  .coded status code (AUTH_ERROR_MESSAGES code)

section Lookup

variable (directory : Directory)

/-- `prisma.user.findUnique({ where: { phoneHash } })`, by the identifier it selects. -/
def Directory.findUnique (hash : String) : Option String :=
  (directory.users.rows.find? fun row => row.2.phoneHash = some hash).map (·.1)

variable {directory}

theorem Directory.findUnique_eq_some {hash id : String} :
    directory.findUnique hash = some id
      ↔ ∃ user, directory.users.lookup id = some user ∧ user.phoneHash = some hash := by
  unfold Directory.findUnique
  rw [Option.map_eq_some_iff]
  constructor
  · rintro ⟨⟨found, user⟩, hfind, rfl⟩
    exact ⟨user, Table.mem_rows.1 (List.mem_of_find?_eq_some hfind),
      by simpa using List.find?_some hfind⟩
  · rintro ⟨user, hlookup, hhash⟩
    have hmem : (id, user) ∈ directory.users.rows := Table.mem_rows.2 hlookup
    cases hfind : directory.users.rows.find? fun row => row.2.phoneHash = some hash with
    | none => exact absurd (List.find?_eq_none.1 hfind _ hmem) (by simp [hhash])
    | some row =>
      -- Another row under the hash would be a second one in the index.
      have hrow := Table.mem_rows.1 (List.mem_of_find?_eq_some hfind)
      have hsame : row.2.phoneHash = some hash := by simpa using List.find?_some hfind
      exact ⟨row, rfl, directory.distinct row.1 id row.2 user hrow hlookup (by simp [hsame])
        (by rw [hsame, hhash])⟩

end Lookup

/-- Whether a row under `id` may carry `hash`. -/
def Directory.free (directory : Directory) (id : String) (hash : Option String) : Prop :=
  ∀ value, hash = some value → ∀ holder, directory.findUnique value = some holder → holder = id

instance (directory : Directory) (id : String) (hash : Option String) :
    Decidable (directory.free id hash) :=
  match hash with
  | none => isTrue (by intro value h; cases h)
  | some value =>
      decidable_of_iff (∀ holder ∈ directory.findUnique value, holder = id)
        ⟨fun h value' hvalue holder hholder => h holder (by grind),
          fun h holder hholder => h value rfl holder hholder⟩

theorem Distinct.insert {directory : Directory} {id : String} {user : User}
    (hfree : directory.free id user.phoneHash) : Distinct (directory.users.insert id user) := by
  have hclash : ∀ other row, directory.users.lookup other = some row → user.phoneHash ≠ none →
      row.phoneHash = user.phoneHash → other = id := by
    intro other row hrow hsome hsame
    obtain ⟨hash, hhash⟩ := Option.ne_none_iff_exists'.1 hsome
    exact hfree hash hhash other (Directory.findUnique_eq_some.2 ⟨row, hrow, hsame.trans hhash⟩)
  intro one other row row' hone hother hsome hsame
  rw [Table.lookup_insert_ite] at hone hother
  split at hone <;> split at hother
  · simp [*]
  · cases hone
    simp [*, hclash other row' hother hsome hsame.symm]
  · cases hother
    simp [*, hclash one row hone (hsame ▸ hsome) hsame]
  · exact directory.distinct one other row row' hone hother hsome hsame

/-- Write a row, unless the unique index forbids it. -/
def Directory.save (directory : Directory) (id : String) (user : User) :
    Except Failure Directory :=
  if h : directory.free id user.phoneHash then
    .ok ⟨directory.users.insert id user, Distinct.insert h⟩
  else .error .uniqueConstraint

/-! ### What is submitted -/

/-- A text field of a request: left out, null, or a text. -/
inductive Submitted where
  | absent
  | null
  | text (content : String)
deriving DecidableEq, Repr

/-- `a ?? b`. -/
def Submitted.orElse : Submitted → Submitted → Submitted
  | .text content, _ => .text content
  | _, other => other

/-- What the column holds after the field is written. -/
def Submitted.written (before : Option String) : Submitted → Option String
  | .absent => before
  | .null => none
  | .text content => some content

/-- What a caller can send of a user: `phoneHash` is declared with `input: false`. -/
structure Submission where
  name : Submitted
  fullName : Submitted
  phoneNumber : Submitted
deriving DecidableEq, Repr

/-- The payload the hooks read and rewrite. -/
structure UserCreateData extends Submission where
  phoneHash : Submitted
deriving DecidableEq, Repr

def Submission.data (user : Submission) : UserCreateData :=
  { user with phoneHash := .absent }

def UserCreateData.written (data : UserCreateData) (before : User) : User :=
  { before with
    name := data.name.written before.name
    fullName := data.fullName.written before.fullName
    phoneNumber := data.phoneNumber.written before.phoneNumber
    phoneHash := data.phoneHash.written before.phoneHash }

structure UpdateProfileDto where
  fullName : Submitted
  phoneNumber : Submitted
deriving DecidableEq, Repr

/-! ### The entry points -/

section Entry

variable (unicode : Unicode) (hmac : String → String)

/-- The display name of a new user, on both columns. -/
def guardName (data : UserCreateData) : Except Failure UserCreateData :=
  match data.fullName.orElse data.name with
  | .text rawName =>
      let name := sanitizeName rawName
      if name = "" then .error (reject 422 .NAME_REQUIRED)
      else if utf16Length name < 2 ∨ MAX_NAME_LENGTH < utf16Length name then
        .error (reject 422 .NAME_LENGTH)
      else .ok { data with name := .text name, fullName := .text name }
  | other => .ok { data with fullName := other }

def guardUserCreate (directory : Directory) (user : UserCreateData) :
    Except Failure UserCreateData := do
  let data ← guardName user
  match data.phoneNumber with
  | .text rawPhone =>
      if trim rawPhone.toList = [] then .ok data
      else
        match canonicalizePhone unicode rawPhone with
        | none => .error (reject 422 .PHONE_INVALID)
        | some canonical =>
            match phoneBlindIndex unicode hmac canonical with
            | none => .error (reject 422 .PHONE_INVALID)
            | some phoneHash =>
                match directory.findUnique phoneHash with
                | some _ => .error (reject 422 .PHONE_ALREADY_REGISTERED)
                | none =>
                    .ok { data with phoneNumber := .text canonical, phoneHash := .text phoneHash }
  | _ => .ok data

/-- The display name of an updated user: kept on both columns, if anything is left of it. -/
def guardNewName (data : UserCreateData) : UserCreateData :=
  match data.name with
  | .text rawName =>
      let name := sanitizeName rawName
      if name = "" then data else { data with name := .text name, fullName := .text name }
  | _ => data

def guardUserUpdate (user : UserCreateData) : Except Failure UserCreateData :=
  let data := guardNewName user
  match data.phoneNumber with
  | .text rawPhone =>
      if trim rawPhone.toList = [] then .ok data
      else
        match canonicalizePhone unicode rawPhone with
        | none => .error (reject 422 .PHONE_INVALID)
        | some canonical =>
            -- `?? undefined` leaves the column as it is.
            .ok { data with
              phoneNumber := .text canonical
              phoneHash := match phoneBlindIndex unicode hmac canonical with
                | some phoneHash => .text phoneHash
                | none => .absent }
  | _ => .ok data

/-- Sign-up: the hook, then Better Auth's insert. -/
def createUser (directory : Directory) (id : String) (user : Submission) :
    Except Failure Directory := do
  let data ← guardUserCreate unicode hmac directory user.data
  if (directory.users.lookup id).isSome then .error .uniqueConstraint
  else directory.save id (data.written ⟨none, none, none, none, false⟩)

/-- `/update-user`: the hook, then Better Auth's update. -/
def updateUser (directory : Directory) (id : String) (user : Submission) :
    Except Failure Directory := do
  let data ← guardUserUpdate unicode hmac user.data
  match directory.users.lookup id with
  | none => .error (.notFound "Record to update not found.")
  | some row => directory.save id (data.written row)

/-- The phone columns of a profile edit. -/
def phoneData (directory : Directory) (id : String) :
    Submitted → Except Failure (Submitted × Submitted)
  | .absent => .ok (.absent, .absent)
  | .null => .error .typeError
  | .text phoneNumber =>
      match canonicalizePhone unicode phoneNumber with
      | none => .error (reject 400 .PHONE_INVALID)
      | some canonical =>
          match phoneBlindIndex unicode hmac canonical with
          | none => .error (reject 400 .PHONE_INVALID)
          | some phoneHash =>
              match directory.findUnique phoneHash with
              | some owner =>
                  if owner ≠ id then .error (reject 409 .PHONE_ALREADY_REGISTERED)
                  else .ok (.text canonical, .text phoneHash)
              | none => .ok (.text canonical, .text phoneHash)

/-- `PATCH /users/me`. -/
def updateProfile (directory : Directory) (id : String) (dto : UpdateProfileDto) :
    Except Failure Directory :=
  match directory.users.lookup id with
  | none => .error (.notFound s!"User with ID {id} not found")
  | some row =>
      if row.isDeleted then .error (.notFound s!"User with ID {id} not found")
      else do
        let (phoneNumber, phoneHash) ← phoneData unicode hmac directory id dto.phoneNumber
        directory.save id
          (UserCreateData.written ⟨⟨dto.fullName, dto.fullName, phoneNumber⟩, phoneHash⟩ row)

inductive Request where
  | create (id : String) (user : Submission)
  | update (id : String) (user : Submission)
  | updateProfile (id : String) (dto : UpdateProfileDto)

def handle (directory : Directory) : Request → Except Failure Directory
  | .create id user => createUser unicode hmac directory id user
  | .update id user => updateUser unicode hmac directory id user
  | .updateProfile id dto => Lopay.Users.updateProfile unicode hmac directory id dto

/-- The requests one after the other; a refused one leaves the table as it was. -/
def run (directory : Directory) : List Request → Directory
  | [] => directory
  | request :: rest =>
      match handle unicode hmac directory request with
      | .ok after => run after rest
      | .error _ => run directory rest

end Entry

end Lopay.Users
