import Lopay.Users.Directory

/-!
# What keeps the index in step

One lemma for each entry point says what it writes to the two columns. All of them write a number
with its hash, or leave both alone, except that a blank number goes in without touching the hash:
harmless on a new row, and on an old one only where there was no hash to begin with.
-/

namespace Lopay.Users

open Transactions Text

variable (unicode : Unicode) (hmac : String → String)

/-- The hash of the row is that of its number, null where it has no valid one. -/
def Indexed (user : User) : Prop :=
  user.phoneHash = user.phoneNumber.bind (phoneBlindIndex unicode hmac)

/-- A number field that empties the column, or fills it with spaces. -/
def Blank : Submitted → Prop
  | .absent => False
  | .null => True
  | .text content => trim content.toList = []

/-- What is written to the two columns: both or neither, or a blank number alone. -/
inductive InStep : Submitted → Submitted → Prop where
  | indexed {number hash : String} (h : phoneBlindIndex unicode hmac number = some hash) :
      InStep (.text number) (.text hash)
  | kept : InStep .absent .absent
  | blank {number : Submitted} (h : Blank number) : InStep number .absent

variable {unicode hmac}

/-- A blank is not a number. -/
theorem phoneBlindIndex_blank {raw : String} (h : trim raw.toList = []) :
    phoneBlindIndex unicode hmac raw = none := by
  have hspace := trim_eq_nil h
  have hstripped : stripPhoneFormatting unicode raw.toList = [] := by
    unfold stripPhoneFormatting
    rw [List.filter_filter, List.filter_eq_nil_iff]
    intro c hc
    simp [hspace c hc]
  simp [phoneBlindIndex, canonicalizePhone, hstripped, NIGERIA_LOCAL, NIGERIA_INTERNATIONAL]

/-! ### The entry points -/

theorem guardName_phone {data after : UserCreateData} (h : guardName data = .ok after) :
    after.phoneNumber = data.phoneNumber ∧ after.phoneHash = data.phoneHash := by
  unfold guardName at h
  split at h
  · simp only at h
    split at h
    · cases h
    · split at h
      · cases h
      · cases h
        exact ⟨rfl, rfl⟩
  · cases h
    exact ⟨rfl, rfl⟩

theorem guardNewName_phone (data : UserCreateData) :
    (guardNewName data).phoneNumber = data.phoneNumber
      ∧ (guardNewName data).phoneHash = data.phoneHash := by
  unfold guardNewName
  split
  · simp only
    split <;> exact ⟨rfl, rfl⟩
  · exact ⟨rfl, rfl⟩

/-- A field that is no text leaves the columns alone, or empties the number. -/
theorem inStep_of_not_text {number : Submitted} (h : ∀ content, number ≠ .text content) :
    InStep unicode hmac number .absent := by
  cases number with
  | absent => exact .kept
  | null => exact .blank trivial
  | text content => exact absurd rfl (h content)

theorem guardUserCreate_inStep {directory : Directory} {user : Submission}
    {data : UserCreateData} (h : guardUserCreate unicode hmac directory user.data = .ok data) :
    InStep unicode hmac data.phoneNumber data.phoneHash := by
  unfold guardUserCreate at h
  cases hname : guardName user.data with
  | error failure => rw [hname] at h; cases h
  | ok named =>
    rw [hname] at h
    have hhash : named.phoneHash = .absent := (guardName_phone hname).2
    simp only [bind, Except.bind] at h
    split at h
    · rename_i rawPhone hphone
      split at h
      · rename_i hblank
        cases h
        rw [hhash, hphone]
        exact .blank hblank
      · split at h
        · cases h
        · split at h
          · cases h
          · rename_i phoneHash hindex
            split at h
            · cases h
            · cases h
              exact .indexed hindex
    · rename_i hphone
      have hsame := Except.ok.inj h
      rw [← hsame, hhash]
      exact inStep_of_not_text hphone

theorem guardUserUpdate_inStep {user : Submission} {data : UserCreateData}
    (h : guardUserUpdate unicode hmac user.data = .ok data) :
    InStep unicode hmac data.phoneNumber data.phoneHash
      ∧ (Blank data.phoneNumber → Blank user.phoneNumber) := by
  obtain ⟨hnumber, hhash⟩ := guardNewName_phone user.data
  replace hnumber : (guardNewName user.data).phoneNumber = user.phoneNumber := hnumber
  replace hhash : (guardNewName user.data).phoneHash = .absent := hhash
  unfold guardUserUpdate at h
  simp only at h
  split at h
  · rename_i rawPhone hphone
    split at h
    · rename_i hblank
      cases h
      rw [hhash, hphone, ← hnumber, hphone]
      exact ⟨.blank hblank, id⟩
    · split at h
      · cases h
      · rename_i canonical hcanonical
        have hindex : phoneBlindIndex unicode hmac canonical = some (hmac canonical) :=
        phoneBlindIndex_canonical unicode hcanonical
        cases h
        simp only [hindex]
        refine ⟨.indexed hindex, fun hblank => ?_⟩
        rw [phoneBlindIndex_blank hblank] at hindex
        cases hindex
  · rename_i hphone
    have hsame := Except.ok.inj h
    rw [← hsame, hhash]
    exact ⟨inStep_of_not_text hphone, fun hblank => hnumber ▸ hblank⟩

theorem phoneData_inStep {directory : Directory} {id : String} {phoneNumber : Submitted}
    {columns : Submitted × Submitted}
    (h : phoneData unicode hmac directory id phoneNumber = .ok columns) :
    InStep unicode hmac columns.1 columns.2 ∧ ¬Blank columns.1 := by
  have hindexed : ∀ {canonical hash}, phoneBlindIndex unicode hmac canonical = some hash →
      InStep unicode hmac (.text canonical) (.text hash) ∧ ¬Blank (.text canonical) := by
    intro canonical hash hindex
    refine ⟨.indexed hindex, fun hblank => ?_⟩
    rw [phoneBlindIndex_blank hblank] at hindex
    cases hindex
  unfold phoneData at h
  split at h
  · cases h
    exact ⟨.kept, not_false⟩
  · cases h
  · split at h
    · cases h
    · split at h
      · cases h
      · rename_i phoneHash hindex
        split at h
        · split at h
          · cases h
          · cases h
            exact hindexed hindex
        · cases h
          exact hindexed hindex

/-! ### The rows -/

/-- A row in step stays so exactly when no hash is left behind a blanked number. -/
theorem written_indexed {data : UserCreateData} {before : User}
    (hdata : InStep unicode hmac data.phoneNumber data.phoneHash)
    (hbefore : Indexed unicode hmac before) :
    Indexed unicode hmac (data.written before)
      ↔ (Blank data.phoneNumber → before.phoneHash = none) := by
  obtain ⟨⟨name, fullName, number⟩, hash⟩ := data
  simp only at hdata
  cases hdata with
  | indexed hindex =>
    refine iff_of_true ?_ fun hblank => ?_
    · simp [Indexed, UserCreateData.written, Submitted.written, hindex]
    · rw [phoneBlindIndex_blank hblank] at hindex
      cases hindex
  | kept =>
    exact iff_of_true hbefore (fun hblank => absurd hblank not_false)
  | blank hblank =>
    have hnone : (number.written before.phoneNumber).bind (phoneBlindIndex unicode hmac)
        = none := by
      cases number with
      | absent => exact absurd hblank not_false
      | null => rfl
      | text content => exact phoneBlindIndex_blank hblank
    change before.phoneHash = (number.written before.phoneNumber).bind _ ↔ _
    rw [hnone]
    exact ⟨fun h _ => h, fun h => h hblank⟩

theorem Directory.save_users {directory after : Directory} {id : String} {user : User}
    (h : directory.save id user = .ok after) : after.users = directory.users.insert id user := by
  unfold Directory.save at h
  split at h
  · cases h
    rfl
  · cases h

theorem createUser_users {directory after : Directory} {id : String} {user : Submission}
    (h : createUser unicode hmac directory id user = .ok after) :
    ∃ data : UserCreateData, InStep unicode hmac data.phoneNumber data.phoneHash
      ∧ after.users = directory.users.insert id (data.written ⟨none, none, none, none, false⟩) := by
  unfold createUser at h
  cases hguard : guardUserCreate unicode hmac directory user.data with
  | error failure => rw [hguard] at h; cases h
  | ok data =>
    rw [hguard] at h
    simp only [bind, Except.bind] at h
    split at h
    · cases h
    · exact ⟨data, guardUserCreate_inStep hguard, Directory.save_users h⟩

theorem updateUser_users {directory after : Directory} {id : String} {user : Submission}
    (h : updateUser unicode hmac directory id user = .ok after) :
    ∃ (data : UserCreateData) (row : User), directory.users.lookup id = some row
      ∧ InStep unicode hmac data.phoneNumber data.phoneHash
      ∧ (Blank data.phoneNumber → Blank user.phoneNumber)
      ∧ after.users = directory.users.insert id (data.written row) := by
  unfold updateUser at h
  cases hguard : guardUserUpdate unicode hmac user.data with
  | error failure => rw [hguard] at h; cases h
  | ok data =>
    rw [hguard] at h
    simp only [bind, Except.bind] at h
    split at h
    · cases h
    · rename_i row hrow
      obtain ⟨hstep, hblank⟩ := guardUserUpdate_inStep hguard
      exact ⟨data, row, hrow, hstep, hblank, Directory.save_users h⟩

theorem updateProfile_users {directory after : Directory} {id : String} {dto : UpdateProfileDto}
    (h : updateProfile unicode hmac directory id dto = .ok after) :
    ∃ (data : UserCreateData) (row : User), directory.users.lookup id = some row
      ∧ InStep unicode hmac data.phoneNumber data.phoneHash ∧ ¬Blank data.phoneNumber
      ∧ after.users = directory.users.insert id (data.written row) := by
  unfold updateProfile at h
  split at h
  · cases h
  · rename_i row hrow
    split at h
    · cases h
    · cases hphone : phoneData unicode hmac directory id dto.phoneNumber with
      | error failure => rw [hphone] at h; cases h
      | ok columns =>
        rw [hphone] at h
        simp only [bind, Except.bind] at h
        obtain ⟨hstep, hblank⟩ := phoneData_inStep hphone
        exact ⟨_, row, hrow, hstep, hblank, Directory.save_users h⟩

/-! ### Runs -/

/-- No request blanks, through the update hook, the number of a row that has a hash. -/
def Request.Heeded (directory : Directory) : Request → Prop
  | .update id user =>
      Blank user.phoneNumber → ∀ row, directory.users.lookup id = some row → row.phoneHash = none
  | _ => True

variable (unicode hmac) in
/-- Every request of the sequence is such, on the table it finds. -/
def Heeds (directory : Directory) : List Request → Prop
  | [] => True
  | request :: rest =>
      request.Heeded directory ∧
        match handle unicode hmac directory request with
        | .ok after => Heeds after rest
        | .error _ => Heeds directory rest

variable (unicode hmac) in
/-- Every row is in step but those the table started with. -/
def Tracked (legacy : Directory) (directory : Directory) : Prop :=
  ∀ id user, id ∉ legacy.users → directory.users.lookup id = some user →
    Indexed unicode hmac user

theorem Tracked.insert {legacy directory after : Directory} {id : String} {user : User}
    (htracked : Tracked unicode hmac legacy directory)
    (hafter : after.users = directory.users.insert id user)
    (hindexed : id ∉ legacy.users → Indexed unicode hmac user) :
    Tracked unicode hmac legacy after := by
  intro id' row hnew hrow
  rw [hafter, Table.lookup_insert_ite] at hrow
  split at hrow
  · cases hrow
    exact hindexed (by simp_all)
  · exact htracked id' row hnew hrow

/-- One request keeps the rows in step. -/
theorem handle_tracked {legacy directory after : Directory} {request : Request}
    (htracked : Tracked unicode hmac legacy directory) (hheeded : request.Heeded directory)
    (h : handle unicode hmac directory request = .ok after) :
    Tracked unicode hmac legacy after := by
  cases request with
  | create id user =>
    obtain ⟨data, hstep, hafter⟩ := createUser_users h
    have hempty : Indexed unicode hmac ⟨none, none, none, none, false⟩ := rfl
    exact htracked.insert hafter fun _ => (written_indexed hstep hempty).2 fun _ => rfl
  | update id user =>
    obtain ⟨data, row, hrow, hstep, hblank, hafter⟩ := updateUser_users h
    refine htracked.insert hafter fun hnew => ?_
    exact (written_indexed hstep (htracked id row hnew hrow)).2
      fun h => hheeded (hblank h) row hrow
  | updateProfile id dto =>
    obtain ⟨data, row, hrow, hstep, hblank, hafter⟩ := updateProfile_users h
    refine htracked.insert hafter fun hnew => ?_
    exact (written_indexed hstep (htracked id row hnew hrow)).2 fun h => absurd h hblank

theorem run_tracked {legacy directory : Directory} {requests : List Request}
    (htracked : Tracked unicode hmac legacy directory)
    (hheeds : Heeds unicode hmac directory requests) :
    Tracked unicode hmac legacy (run unicode hmac directory requests) := by
  induction requests generalizing directory with
  | nil => exact htracked
  | cons request rest ih =>
    unfold run
    unfold Heeds at hheeds
    cases hhandle : handle unicode hmac directory request with
    | error failure =>
      rw [hhandle] at hheeds
      exact ih htracked hheeds.2
    | ok after =>
      rw [hhandle] at hheeds
      exact ih (handle_tracked htracked hheeds.1 hhandle) hheeds.2

theorem heeds_of_forall {requests : List Request}
    (h : ∀ request ∈ requests, ∀ directory, request.Heeded directory) (directory : Directory) :
    Heeds unicode hmac directory requests := by
  induction requests generalizing directory with
  | nil => trivial
  | cons request rest ih =>
    have hrest := ih fun request hmem => h request (List.mem_cons_of_mem _ hmem)
    refine ⟨h request List.mem_cons_self directory, ?_⟩
    split
    · exact hrest _
    · exact hrest _

/-- After any sequence of requests, none of which blanks through the update hook the number of a
    row that has a hash: each row created on the way carries the hash of its number, so a number
    is found under its row however it is spelled, and one that was given up is found there no
    more. -/
theorem phoneHash_tracks_phoneNumber {legacy : Directory} {requests : List Request}
    (hheeds : Heeds unicode hmac legacy requests) {id : String} {user : User}
    (hnew : id ∉ legacy.users)
    (huser : (run unicode hmac legacy requests).users.lookup id = some user) :
    user.phoneHash = user.phoneNumber.bind (phoneBlindIndex unicode hmac)
      ∧ ∀ raw hash, phoneBlindIndex unicode hmac raw = some hash →
        ((run unicode hmac legacy requests).findUnique hash = some id
          ↔ user.phoneNumber.bind (phoneBlindIndex unicode hmac) = some hash) := by
  have hstart : Tracked unicode hmac legacy legacy := by
    intro id user hnew huser
    exact absurd (AList.lookup_isSome.1 (by simp [huser])) hnew
  have hindexed := run_tracked hstart hheeds id user hnew huser
  refine ⟨hindexed, fun raw hash _ => ?_⟩
  rw [Directory.findUnique_eq_some, ← hindexed]
  constructor
  · rintro ⟨found, hfound, hhash⟩
    rw [huser, Option.some.injEq] at hfound
    rw [hfound, hhash]
  · intro hhash
    exact ⟨user, huser, hhash⟩

/-- The categories of ASCII, and a keyed digest to run with. -/
def ascii : Unicode where
  other c := decide (c.toNat < 0x20) || decide (0x7f ≤ c.toNat)
  printable c hlow hhigh := by simp; omega

def keyed (text : String) : String := "hmac/" ++ text

def nobody : Directory := ⟨∅, by intro id id' user user' h; simp at h⟩

/-- Sign up with a number, change it on the profile, and sign up again with the old one. -/
def movedNumber : List Request :=
  [.create "u1" ⟨.text "Ada Obi", .absent, .text "0801 234-5678"⟩,
    .updateProfile "u1" ⟨.absent, .text "+2348099999999"⟩,
    .create "u2" ⟨.text "Bola Ade", .absent, .text "08012345678"⟩]

def secondOwner : User :=
  ⟨some "Bola Ade", some "Bola Ade", some "+2348012345678", some "hmac/+2348012345678", false⟩

theorem phoneHash_tracks_movedNumber :
    secondOwner.phoneHash = secondOwner.phoneNumber.bind (phoneBlindIndex ascii keyed)
      ∧ ∀ raw hash, phoneBlindIndex ascii keyed raw = some hash →
        ((run ascii keyed nobody movedNumber).findUnique hash = some "u2"
          ↔ secondOwner.phoneNumber.bind (phoneBlindIndex ascii keyed) = some hash) := by
  have hheeds : Heeds ascii keyed nobody movedNumber := by
    apply heeds_of_forall
    intro request hrequest directory
    simp only [movedNumber, List.mem_cons, List.not_mem_nil, or_false] at hrequest
    rcases hrequest with rfl | rfl | rfl <;> exact trivial
  exact phoneHash_tracks_phoneNumber hheeds (AList.notMem_empty _) (by decide +kernel)

/-- Sign up with a number, then blank it through `/update-user`. -/
def blankedNumber : List Request :=
  [.create "u1" ⟨.text "Ada Obi", .absent, .text "08012345678"⟩,
    .update "u1" ⟨.absent, .absent, .text ""⟩]

def blankedUser : User :=
  ⟨some "Ada Obi", some "Ada Obi", some "", some "hmac/+2348012345678", false⟩

theorem blank_update_keeps_hash :
    (run ascii keyed nobody blankedNumber).users.lookup "u1" = some blankedUser
      ∧ ¬Indexed ascii keyed blankedUser
      ∧ (handle ascii keyed (run ascii keyed nobody blankedNumber)
          (.create "u2" ⟨.text "Bola Ade", .absent, .text "08012345678"⟩)).map (fun _ => ())
        = .error (reject 422 .PHONE_ALREADY_REGISTERED) := by
  refine ⟨?_, ?_, ?_⟩
  · decide +kernel
  · unfold Indexed
    decide +kernel
  · decide +kernel

end Lopay.Users
