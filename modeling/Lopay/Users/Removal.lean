import Lopay.Users.Accounts
import Mathlib.Data.Fintype.EquivFin

/-!
# What a removal frees

Every operation writes one row, and with it an address or none. A removed row keeps the placeholder
it was given, so the address it had is free; nothing touches its hash, so a number it had is not.
-/

namespace Lopay.Users

open Transactions Text

variable {unicode : Unicode} {hmac : String → String}

/-! ### One operation -/

variable (unicode hmac) in
/-- A valid number on the row is under its hash. -/
def Hashed (user : User) : Prop :=
  ∀ hash, user.phoneNumber.bind (phoneBlindIndex unicode hmac) = some hash →
    user.phoneHash = some hash

theorem written_hashed {data : UserCreateData} {before : User}
    (hdata : InStep unicode hmac data.phoneNumber data.phoneHash)
    (hbefore : Hashed unicode hmac before) : Hashed unicode hmac (data.written before) := by
  obtain ⟨⟨name, fullName, number⟩, hash⟩ := data
  simp only at hdata
  intro found hfound
  cases hdata with
  | indexed hindex =>
    simp only [UserCreateData.written, Submitted.written, Option.bind_some] at hfound ⊢
    rw [← hfound, hindex]
  | kept => exact hbefore found hfound
  | blank hblank =>
    cases number with
    | absent => exact absurd hblank not_false
    | null => cases hfound
    | text content =>
      have hnone : phoneBlindIndex unicode hmac content = none := phoneBlindIndex_blank hblank
      simp only [UserCreateData.written, Submitted.written, Option.bind_some, hnone] at hfound
      cases hfound

variable (unicode hmac) in
/-- From `before` to `after`, the row of one user was written. -/
structure Wrote (before after : Accounts) (id : String) (user : User) : Prop where
  users : after.directory.users = before.directory.users.insert id user
  hashed : (∀ old, before.row id = some old → Hashed unicode hmac old) → Hashed unicode hmac user
  address :
    (after.emails = before.emails ∧ ∃ old, before.row id = some old ∧ user.isDeleted = old.isDeleted)
      ∨ ∃ email, after.emails = before.emails.insert id email
        ∧ (user.isDeleted → email = anonymizedEmail id)

theorem Accounts.address_ok {accounts after : Accounts} {directory : Directory}
    {id email : String} (h : accounts.address directory id email = .ok after) :
    after.directory = directory ∧ after.emails = accounts.emails.insert id email
      ∧ after.schools = accounts.schools := by
  unfold Accounts.address at h
  split at h
  · cases h
    exact ⟨rfl, rfl, rfl⟩
  · cases h

theorem Accounts.findOne_ok {accounts : Accounts} {id : String} {user : User}
    (h : accounts.findOne id = .ok user) : accounts.row id = some user ∧ user.isDeleted = false := by
  unfold Accounts.findOne at h
  split at h
  · rename_i found hfound
    split at h
    · cases h
    · rename_i hlive
      cases h
      exact ⟨hfound, by simpa using hlive⟩
  · cases h

theorem signUp_wrote {accounts after : Accounts} {id email : String} {user : Submission}
    (h : accounts.signUp unicode hmac id email user = .ok after) :
    ∃ written, Wrote unicode hmac accounts after id written ∧ written.isDeleted = false
      ∧ after.emails = accounts.emails.insert id email := by
  unfold Accounts.signUp at h
  cases hcreate : createUser unicode hmac accounts.directory id user with
  | error failure => rw [hcreate] at h; cases h
  | ok directory =>
    rw [hcreate] at h
    obtain ⟨hdirectory, hemails, -⟩ := Accounts.address_ok h
    obtain ⟨data, hstep, hwritten⟩ := createUser_users hcreate
    have hwrote : Wrote unicode hmac accounts after id
        (data.written ⟨none, none, none, none, false⟩) := by
      refine ⟨by rw [hdirectory, hwritten], fun _ => ?_, Or.inr ⟨email, hemails, ?_⟩⟩
      · exact written_hashed hstep fun hash hhash => by cases hhash
      · intro hdeleted
        cases hdeleted
    exact ⟨_, hwrote, rfl, hemails⟩

theorem updateUser_wrote {accounts after : Accounts} {id : String} {user : Submission}
    (h : accounts.updateUser unicode hmac id user = .ok after) :
    ∃ written, Wrote unicode hmac accounts after id written := by
  unfold Accounts.updateUser at h
  cases hupdate : Users.updateUser unicode hmac accounts.directory id user with
  | error failure => rw [hupdate] at h; cases h
  | ok directory =>
    rw [hupdate] at h
    obtain ⟨data, old, hold, hstep, -, hwritten⟩ := updateUser_users hupdate
    cases h
    exact ⟨_, hwritten, fun hashed => written_hashed hstep (hashed old hold),
      Or.inl ⟨rfl, old, hold, rfl⟩⟩

theorem updateProfile_wrote {accounts after : Accounts} {id : String} {dto : UpdateProfileDto}
    (h : accounts.updateProfile unicode hmac id dto = .ok after) :
    ∃ written, Wrote unicode hmac accounts after id written := by
  unfold Accounts.updateProfile at h
  cases hupdate : Users.updateProfile unicode hmac accounts.directory id dto with
  | error failure => rw [hupdate] at h; cases h
  | ok directory =>
    rw [hupdate] at h
    obtain ⟨data, old, hold, hstep, -, hwritten⟩ := updateProfile_users hupdate
    cases h
    exact ⟨_, hwritten, fun hashed => written_hashed hstep (hashed old hold),
      Or.inl ⟨rfl, old, hold, rfl⟩⟩

theorem update_wrote {accounts after : Accounts} {id : String} {dto : UpdateUserDto}
    (h : accounts.update id dto = .ok after) :
    ∃ written, Wrote unicode hmac accounts after id written := by
  unfold Accounts.update at h
  cases hfind : accounts.findOne id with
  | error failure => rw [hfind] at h; cases h
  | ok old =>
    obtain ⟨hold, hlive⟩ := Accounts.findOne_ok hfind
    rw [hfind] at h
    simp only [bind, Except.bind] at h
    cases hsave : accounts.directory.save id
        { old with fullName := dto.fullName.written old.fullName } with
    | error failure => rw [hsave] at h; cases h
    | ok directory =>
      have hwritten := Directory.save_users hsave
      rw [hsave] at h
      simp only at h
      split at h
      · cases h
        exact ⟨_, hwritten, fun hashed => hashed old hold, Or.inl ⟨rfl, old, hold, rfl⟩⟩
      · cases h
      · rename_i email _
        obtain ⟨hdirectory, hemails, -⟩ := Accounts.address_ok h
        refine ⟨{ old with fullName := dto.fullName.written old.fullName },
          by rw [hdirectory, hwritten], fun hashed => hashed old hold,
          Or.inr ⟨email, hemails, fun hdeleted => ?_⟩⟩
        rw [hlive] at hdeleted
        cases hdeleted

/-- Both deletions leave the columns of the number alone. -/
theorem anonymize_ok {accounts after : Accounts} {id : String}
    (h : accounts.anonymize id = .ok after) :
    ∃ user, accounts.row id = some user
      ∧ after.directory.users = accounts.directory.users.insert id { user with isDeleted := true }
      ∧ after.emails = accounts.emails.insert id (anonymizedEmail id) := by
  unfold Accounts.anonymize at h
  split at h
  · cases h
  · rename_i user huser
    cases hsave : accounts.directory.save id { user with isDeleted := true } with
    | error failure => rw [hsave] at h; cases h
    | ok directory =>
      rw [hsave] at h
      obtain ⟨hdirectory, hemails, -⟩ := Accounts.address_ok h
      exact ⟨user, huser, by rw [hdirectory, Directory.save_users hsave], hemails⟩

variable (unicode hmac) in
theorem anonymize_wrote {accounts after : Accounts} {id : String}
    (h : accounts.anonymize id = .ok after) :
    ∃ written, Wrote unicode hmac accounts after id written := by
  obtain ⟨user, huser, husers, hemails⟩ := anonymize_ok h
  exact ⟨_, husers, fun hashed => hashed user huser, Or.inr ⟨_, hemails, fun _ => rfl⟩⟩

theorem remove_ok {accounts after : Accounts} {id : String} (h : accounts.remove id = .ok after) :
    accounts.anonymize id = .ok after := by
  unfold Accounts.remove at h
  cases hfind : accounts.findOne id with
  | error failure => rw [hfind] at h; cases h
  | ok user => rw [hfind] at h; exact h

theorem deleteSchool_ok {accounts after : Accounts} {id : String}
    (h : accounts.deleteSchool id = .ok after) :
    ∃ school between, accounts.schools.lookup id = some school
      ∧ accounts.anonymize school.ownerId = .ok between
      ∧ after.directory = between.directory ∧ after.emails = between.emails := by
  unfold Accounts.deleteSchool at h
  split at h
  · cases h
  · rename_i school hschool
    split at h
    · cases h
    · cases hanonymize : accounts.anonymize school.ownerId with
      | error failure => rw [hanonymize] at h; cases h
      | ok between =>
        rw [hanonymize] at h
        cases h
        exact ⟨school, between, hschool, hanonymize, rfl, rfl⟩

theorem Wrote.relabel {before after after' : Accounts} {id : String} {user : User}
    (h : Wrote unicode hmac before after id user) (hdirectory : after'.directory = after.directory)
    (hemails : after'.emails = after.emails) : Wrote unicode hmac before after' id user :=
  ⟨hdirectory ▸ h.users, h.hashed, hemails ▸ h.address⟩

theorem provision_wrote {accounts after : Accounts} {schoolId ownerId ownerEmail ownerName : String}
    (h : accounts.provisionSchoolAndOwner unicode hmac schoolId ownerId ownerEmail ownerName
      = .ok after) : ∃ written, Wrote unicode hmac accounts after ownerId written := by
  unfold Accounts.provisionSchoolAndOwner at h
  split at h
  · cases h
  · split at h
    · cases h
    · rename_i between hbetween
      split at h
      · cases h
      · cases h
        obtain ⟨written, hwrote, -⟩ := signUp_wrote hbetween
        exact ⟨written, hwrote.relabel rfl rfl⟩

theorem mapError_ok {α : Type} {outcome : Except Failure α} {value : α}
    (h : outcome.mapError Refusal.failure = .ok value) : outcome = .ok value := by
  cases outcome with
  | error failure => cases h
  | ok found => cases h; rfl

theorem perform_wrote {accounts after : Accounts} {operation : Operation}
    (h : accounts.perform unicode hmac operation = .ok after) :
    ∃ id written, Wrote unicode hmac accounts after id written := by
  cases operation with
  | signUp id email user =>
    obtain ⟨written, hwrote, -⟩ := signUp_wrote (mapError_ok h)
    exact ⟨id, written, hwrote⟩
  | updateUser id user => exact ⟨id, updateUser_wrote (mapError_ok h)⟩
  | updateProfile id dto => exact ⟨id, updateProfile_wrote (mapError_ok h)⟩
  | update id dto => exact ⟨id, update_wrote (mapError_ok h)⟩
  | provision schoolId ownerId ownerEmail ownerName => exact ⟨ownerId, provision_wrote h⟩
  | remove id => exact ⟨id, anonymize_wrote unicode hmac (remove_ok (mapError_ok h))⟩
  | deleteSchool id =>
    obtain ⟨school, between, -, hanonymize, hdirectory, hemails⟩ := deleteSchool_ok (mapError_ok h)
    obtain ⟨written, hwrote⟩ := anonymize_wrote unicode hmac hanonymize
    exact ⟨school.ownerId, written, hwrote.relabel hdirectory hemails⟩

/-! ### Runs -/

variable (unicode hmac) in
/-- What holds of the tables at any time: valid numbers are under their hashes, a removed row has
    its placeholder for an address, and no address is without its row. -/
structure Sound (accounts : Accounts) : Prop where
  hashed : ∀ id user, accounts.row id = some user → Hashed unicode hmac user
  anonymized : ∀ id user, accounts.row id = some user → user.isDeleted →
    accounts.emails.lookup id = some (anonymizedEmail id)
  owned : ∀ id email, accounts.emails.lookup id = some email → (accounts.row id).isSome

theorem Wrote.row {before after : Accounts} {id : String} {user : User}
    (h : Wrote unicode hmac before after id user) (other : String) :
    after.row other = if other = id then some user else before.row other := by
  rw [Accounts.row, h.users, Table.lookup_insert_ite]
  rfl

theorem Sound.wrote {before after : Accounts} {id : String} {user : User}
    (hsound : Sound unicode hmac before) (h : Wrote unicode hmac before after id user) :
    Sound unicode hmac after where
  hashed other found hfound := by
    rw [h.row] at hfound
    split at hfound
    · cases hfound
      exact h.hashed (hsound.hashed id)
    · exact hsound.hashed other found hfound
  anonymized other found hfound hdeleted := by
    rw [h.row] at hfound
    rcases h.address with ⟨hsame, old, hold, hmark⟩ | ⟨email, hwritten, hplaceholder⟩
    · rw [hsame]
      split at hfound
      · rename_i heq
        cases hfound
        exact heq ▸ hsound.anonymized id old hold (hmark ▸ hdeleted)
      · exact hsound.anonymized other found hfound hdeleted
    · rw [hwritten, Table.lookup_insert_ite]
      split at hfound
      · rename_i heq
        cases hfound
        rw [if_pos heq, hplaceholder hdeleted, heq]
      · rename_i hne
        rw [if_neg hne]
        exact hsound.anonymized other found hfound hdeleted
  owned other email hemail := by
    rw [h.row]
    split
    · rfl
    · rename_i hne
      rcases h.address with ⟨hsame, -⟩ | ⟨written, hwritten, -⟩
      · exact hsound.owned other email (hsame ▸ hemail)
      · rw [hwritten, Table.lookup_insert_ite, if_neg hne] at hemail
        exact hsound.owned other email hemail

theorem Sound.after {accounts : Accounts} (hsound : Sound unicode hmac accounts)
    (operations : List Operation) : Sound unicode hmac (accounts.after unicode hmac operations) := by
  induction operations generalizing accounts with
  | nil => exact hsound
  | cons operation rest ih =>
    unfold Accounts.after
    split
    · rename_i next hnext
      obtain ⟨id, user, hwrote⟩ := perform_wrote hnext
      exact ih (hsound.wrote hwrote)
    · exact ih hsound

def noAccounts : Accounts := ⟨nobody, ∅, ∅, by intro id id' email h; simp at h⟩

variable (unicode hmac) in
theorem sound_noAccounts : Sound unicode hmac noAccounts where
  hashed id user h := by simp [Accounts.row, noAccounts, nobody] at h
  anonymized id user h := by simp [Accounts.row, noAccounts, nobody] at h
  owned id email h := by simp [noAccounts] at h

/-! ### What is free -/

section Freed

variable (unicode hmac)

/-- The number in the column, spelled in any way; no number at all where the column has none. -/
inductive SameNumber (number : Option String) : Submitted → Prop where
  | spelled {raw canonical : String} (hraw : canonicalizePhone unicode raw = some canonical)
      (hnumber : number.bind (canonicalizePhone unicode) = some canonical) :
      SameNumber number (.text raw)
  | without {field : Submitted} (hfield : field = .absent ∨ Blank field)
      (hnumber : number.bind (canonicalizePhone unicode) = none) : SameNumber number field

/-- An account that has not been removed is under the address, or under the hash of the number. -/
def Accounts.Held (accounts : Accounts) (email : String) (number : Option String) : Prop :=
  ∃ id user, accounts.row id = some user ∧ ¬user.isDeleted
    ∧ (accounts.emails.lookup id = some email
      ∨ (user.phoneHash ≠ none ∧ user.phoneHash = number.bind (phoneBlindIndex unicode hmac)))

/-- Anyone with a valid name may sign up under the address and the number, unless a live account
    holds one of them. -/
def Accounts.Frees (accounts : Accounts) (email : String) (number : Option String) : Prop :=
  ∀ id user, accounts.row id = none → (∃ named, guardName user.data = .ok named) →
    SameNumber unicode number user.phoneNumber →
    (∃ after, accounts.signUp unicode hmac id email user = .ok after)
      ∨ accounts.Held unicode hmac email number

end Freed

theorem exists_fresh (accounts : Accounts) : ∃ id, accounts.row id = none := by
  obtain ⟨id, hid⟩ := Infinite.exists_notMem_finset accounts.directory.users.keys.toFinset
  refine ⟨id, AList.lookup_eq_none.2 fun hmem => hid ?_⟩
  exact List.mem_toFinset.2 (AList.mem_keys.1 hmem)

variable (unicode hmac) in
theorem guardUserCreate_without (directory : Directory) {user : Submission} {named : UserCreateData}
    (hname : guardName user.data = .ok named)
    (hfield : user.phoneNumber = .absent ∨ Blank user.phoneNumber) :
    guardUserCreate unicode hmac directory user.data = .ok named ∧ named.phoneHash = .absent := by
  obtain ⟨hnumber, hhash⟩ := guardName_phone hname
  replace hnumber : named.phoneNumber = user.phoneNumber := hnumber
  refine ⟨?_, hhash⟩
  unfold guardUserCreate
  rw [hname]
  simp only [bind, Except.bind]
  split
  · rename_i rawPhone hphone
    rw [hnumber] at hphone
    rw [hphone] at hfield
    rcases hfield with habsent | hblank
    · cases habsent
    · exact if_pos hblank
  · rfl

theorem Directory.save_unhashed (directory : Directory) (id : String) {user : User}
    (h : user.phoneHash = none) : ∃ after, directory.save id user = .ok after := by
  unfold Directory.save
  rw [dif_pos (by rw [h]; intro value hvalue; cases hvalue)]
  exact ⟨_, rfl⟩

variable (unicode hmac) in
/-- Without a number, only the address can stand in the way. -/
theorem signUp_without {accounts : Accounts} {id email : String} {user : Submission}
    (hfresh : accounts.row id = none) (hname : ∃ named, guardName user.data = .ok named)
    (hfield : user.phoneNumber = .absent ∨ Blank user.phoneNumber)
    (hfree : ∀ holder, accounts.emails.lookup holder ≠ some email) :
    ∃ after, accounts.signUp unicode hmac id email user = .ok after := by
  obtain ⟨named, hname⟩ := hname
  obtain ⟨hguard, hhash⟩ := guardUserCreate_without unicode hmac accounts.directory hname hfield
  have hunhashed : (named.written ⟨none, none, none, none, false⟩).phoneHash = none := by
    simp [UserCreateData.written, hhash, Submitted.written]
  obtain ⟨directory, hsave⟩ := Directory.save_unhashed accounts.directory id hunhashed
  have hcreate : createUser unicode hmac accounts.directory id user = .ok directory := by
    unfold createUser
    rw [hguard]
    change (if (accounts.row id).isSome then _ else _) = _
    rw [hfresh]
    exact hsave
  unfold Accounts.signUp
  rw [hcreate]
  change ∃ after, accounts.address directory id email = .ok after
  unfold Accounts.address
  rw [dif_pos fun row hrow heq => absurd (heq ▸ Table.mem_rows.1 hrow) (hfree row.1)]
  exact ⟨_, rfl⟩

theorem signUp_address_taken {accounts after : Accounts} {id holder email : String}
    {user : Submission} (hholder : accounts.emails.lookup holder = some email) (hne : holder ≠ id) :
    accounts.signUp unicode hmac id email user ≠ .ok after := by
  intro h
  unfold Accounts.signUp at h
  cases hcreate : createUser unicode hmac accounts.directory id user with
  | error failure => rw [hcreate] at h; cases h
  | ok directory =>
    rw [hcreate] at h
    change accounts.address directory id email = .ok after at h
    unfold Accounts.address at h
    rw [dif_neg fun hfree => hne (hfree (holder, email) (Table.mem_rows.2 hholder) rfl)] at h
    cases h

/-- A number is refused in every spelling while its hash is on a row, removed or not. -/
theorem signUp_number_taken {accounts : Accounts} {id holder email raw hash : String}
    {found : User} {user : Submission} (hholder : accounts.row holder = some found)
    (hhash : found.phoneHash = some hash) (hraw : user.phoneNumber = .text raw)
    (hindex : phoneBlindIndex unicode hmac raw = some hash)
    (hname : ∃ named, guardName user.data = .ok named) :
    accounts.signUp unicode hmac id email user
      = .error (reject 422 .PHONE_ALREADY_REGISTERED) := by
  obtain ⟨named, hname⟩ := hname
  have hnumber : named.phoneNumber = .text raw := (guardName_phone hname).1.trans hraw
  have hnonblank : trim raw.toList ≠ [] := by
    intro hblank
    rw [phoneBlindIndex_blank hblank] at hindex
    cases hindex
  obtain ⟨canonical, hcanonical, rfl⟩ := Option.map_eq_some_iff.1 hindex
  have htaken : accounts.directory.findUnique (hmac canonical) = some holder :=
    Directory.findUnique_eq_some.2 ⟨found, hholder, hhash⟩
  have hguard : guardUserCreate unicode hmac accounts.directory user.data
      = .error (reject 422 .PHONE_ALREADY_REGISTERED) := by
    unfold guardUserCreate
    rw [hname]
    simp only [bind, Except.bind, hnumber, if_neg hnonblank, hcanonical,
      phoneBlindIndex_canonical unicode hcanonical, htaken]
  unfold Accounts.signUp createUser
  rw [hguard]
  rfl
/-! ### Removals -/

/-- The account an operation is to remove. -/
def Operation.removes (accounts : Accounts) : Operation → Option String
  | .remove id => some id
  | .deleteSchool id => (accounts.schools.lookup id).map School.ownerId
  | _ => none

theorem removal_ok {accounts removed : Accounts} {operation : Operation} {id : String}
    (hremoves : operation.removes accounts = some id)
    (h : accounts.perform unicode hmac operation = .ok removed) :
    ∃ user, accounts.row id = some user
      ∧ removed.directory.users = accounts.directory.users.insert id { user with isDeleted := true }
      ∧ removed.emails = accounts.emails.insert id (anonymizedEmail id) := by
  cases operation with
  | remove other =>
    cases hremoves
    exact anonymize_ok (remove_ok (mapError_ok h))
  | deleteSchool school =>
    obtain ⟨found, between, hfound, hanonymize, hdirectory, hemails⟩ :=
      deleteSchool_ok (mapError_ok h)
    simp only [Operation.removes, hfound, Option.map_some, Option.some.injEq] at hremoves
    rw [hdirectory, hemails]
    exact hremoves ▸ anonymize_ok hanonymize
  | signUp | updateUser | updateProfile | update | provision => cases hremoves

variable (unicode hmac) in
/-- A live account can be removed unless another one has its placeholder for an address. -/
theorem remove_live {accounts : Accounts} {id : String} {user : User}
    (huser : accounts.row id = some user) (hlive : user.isDeleted = false)
    (hfree : ∀ holder, accounts.emails.lookup holder = some (anonymizedEmail id) → holder = id) :
    ∃ removed, accounts.perform unicode hmac (.remove id) = .ok removed := by
  have hfind : accounts.findOne id = .ok user := by
    simp [Accounts.findOne, huser, hlive]
  have hown : accounts.directory.free id user.phoneHash := by
    intro value hvalue holder hholder
    obtain ⟨found, hfound, hhash⟩ := Directory.findUnique_eq_some.1 hholder
    exact accounts.directory.distinct holder id found user hfound huser (by simp [hhash])
      (by rw [hhash, hvalue])
  have hrows : ∀ row ∈ accounts.emails.rows, row.2 = anonymizedEmail id → row.1 = id :=
    fun row hrow heq => hfree row.1 (heq ▸ Table.mem_rows.1 hrow)
  have hanonymize : ∃ removed, accounts.anonymize id = .ok removed := by
    unfold Accounts.anonymize Directory.save
    simp only [huser, dif_pos hown]
    change ∃ removed, accounts.address _ id (anonymizedEmail id) = .ok removed
    unfold Accounts.address
    rw [dif_pos hrows]
    exact ⟨_, rfl⟩
  obtain ⟨removed, hremoved⟩ := hanonymize
  have hremove : accounts.remove id = .ok removed := by
    unfold Accounts.remove
    rw [hfind]
    exact hremoved
  exact ⟨removed, congrArg (Except.mapError Refusal.failure) hremove⟩

theorem anonymizedEmail_injective : Function.Injective anonymizedEmail := by
  intro one other h
  have htext := congrArg String.toList h
  simp only [anonymizedEmail, String.toList_append, List.append_cancel_left_eq,
    List.append_cancel_right_eq] at htext
  exact String.toList_inj.1 htext

theorem bind_index_eq_none {number : Option String} :
    number.bind (phoneBlindIndex unicode hmac) = none
      ↔ number.bind (canonicalizePhone unicode) = none := by
  cases number <;> simp [phoneBlindIndex]

theorem bind_index {number : Option String} {canonical : String}
    (h : number.bind (canonicalizePhone unicode) = some canonical) :
    number.bind (phoneBlindIndex unicode hmac) = some (hmac canonical) := by
  obtain ⟨raw, rfl, hread⟩ := Option.bind_eq_some_iff.1 h
  rw [Option.bind_some, phoneBlindIndex, hread, Option.map_some]

def someone : Submission := ⟨.text "Ada Obi", .absent, .absent⟩

theorem someone_named : ∃ named, guardName someone.data = .ok named := ⟨_, rfl⟩

/-- The address of a removed account is not free, whatever the number. -/
theorem not_frees_placeholder {accounts : Accounts} {id email : String} {user : User}
    {number : Option String} (huser : accounts.row id = some user) (hdeleted : user.isDeleted = true)
    (hemail : accounts.emails.lookup id = some email)
    (hnumber : number.bind (canonicalizePhone unicode) = none) :
    ¬accounts.Frees unicode hmac email number := by
  intro hfrees
  obtain ⟨fresh, hfresh⟩ := exists_fresh accounts
  rcases hfrees fresh someone hfresh someone_named (.without (Or.inl rfl) hnumber)
    with ⟨after, hafter⟩ | ⟨holder, found, hfound, hlive, haddress | ⟨hhash, hsame⟩⟩
  · refine signUp_address_taken hemail (fun heq => ?_) hafter
    rw [heq, hfresh] at huser
    cases huser
  · rw [accounts.apart holder id email haddress hemail, huser, Option.some.injEq] at hfound
    exact hlive (hfound ▸ hdeleted)
  · exact hhash (hsame.trans (bind_index_eq_none.2 hnumber))

/-- Nor is the number of a removed account, in any spelling, while its row has the hash. -/
theorem not_frees_number {accounts : Accounts} {id email canonical : String} {user : User}
    {number : Option String} (huser : accounts.row id = some user) (hdeleted : user.isDeleted = true)
    (hhash : user.phoneHash = some (hmac canonical))
    (hnumber : number.bind (canonicalizePhone unicode) = some canonical)
    (hholder : ∀ holder, accounts.emails.lookup holder = some email → holder = id) :
    ¬accounts.Frees unicode hmac email number := by
  intro hfrees
  obtain ⟨raw, -, hread⟩ := Option.bind_eq_some_iff.1 hnumber
  have hindex : phoneBlindIndex unicode hmac raw = some (hmac canonical) := by
    rw [phoneBlindIndex, hread, Option.map_some]
  obtain ⟨fresh, hfresh⟩ := exists_fresh accounts
  rcases hfrees fresh ⟨.text "Ada Obi", .absent, .text raw⟩ hfresh ⟨_, rfl⟩
    (.spelled hread hnumber)
    with ⟨after, hafter⟩ | ⟨holder, found, hfound, hlive, haddress | ⟨hsome, hsame⟩⟩
  · have hrefused : accounts.signUp unicode hmac fresh email
        ⟨.text "Ada Obi", .absent, .text raw⟩ = .error (reject 422 .PHONE_ALREADY_REGISTERED) :=
      signUp_number_taken huser hhash rfl hindex ⟨_, rfl⟩
    rw [hrefused] at hafter
    cases hafter
  · rw [hholder holder haddress, huser, Option.some.injEq] at hfound
    exact hlive (hfound ▸ hdeleted)
  · have hsameHash : found.phoneHash = user.phoneHash := by
      rw [hsame, bind_index hnumber, hhash]
    have heq := accounts.directory.distinct holder id found user hfound huser hsome hsameHash
    rw [heq, huser, Option.some.injEq] at hfound
    exact hlive (hfound ▸ hdeleted)

/-- An account with no number frees its address for good, unless that is a placeholder. -/
theorem frees_of_no_number {accounts : Accounts} (hsound : Sound unicode hmac accounts)
    {email : String} {number : Option String}
    (hnumber : number.bind (canonicalizePhone unicode) = none)
    (hemail : ∀ other, email ≠ anonymizedEmail other) :
    accounts.Frees unicode hmac email number := by
  intro id user hfresh hname hsame
  by_cases htaken : ∃ holder, accounts.emails.lookup holder = some email
  · obtain ⟨holder, hholder⟩ := htaken
    obtain ⟨found, hfound⟩ := Option.isSome_iff_exists.1 (hsound.owned holder email hholder)
    refine Or.inr ⟨holder, found, hfound, fun hdeleted => ?_, Or.inl hholder⟩
    have hplaceholder := hsound.anonymized holder found hfound hdeleted
    rw [hholder, Option.some.injEq] at hplaceholder
    exact hemail holder hplaceholder
  · refine Or.inl (signUp_without unicode hmac hfresh hname ?_ (not_exists.1 htaken))
    generalize user.phoneNumber = field at hsame
    cases hsame with
    | spelled hraw hspelled => rw [hnumber] at hspelled; cases hspelled
    | without hfield => exact hfield

/-- Whoever the address names as removed can come to hold it. -/
theorem exists_placeholder {accounts : Accounts} (hsound : Sound unicode hmac accounts)
    {other : String} (hfree : ∀ holder, accounts.emails.lookup holder ≠ some (anonymizedEmail other)) :
    ∃ later user, (accounts.after unicode hmac later).row other = some user ∧ user.isDeleted = true
      ∧ (accounts.after unicode hmac later).emails.lookup other = some (anonymizedEmail other) := by
  -- Sign up under the address first, if there is no such account yet.
  have hlive : ∃ first user, (accounts.after unicode hmac first).row other = some user
      ∧ user.isDeleted = false ∧ ∀ holder,
        (accounts.after unicode hmac first).emails.lookup holder = some (anonymizedEmail other) →
          holder = other := by
    cases hother : accounts.row other with
    | some user =>
      refine ⟨[], user, hother, ?_, fun holder hholder => absurd hholder (hfree holder)⟩
      cases hdeleted : user.isDeleted with
      | false => rfl
      | true => exact absurd (hsound.anonymized other user hother hdeleted) (hfree other)
    | none =>
      obtain ⟨between, hbetween⟩ := signUp_without unicode hmac hother someone_named (Or.inl rfl) hfree
      obtain ⟨user, hwrote, hlive, hemails⟩ := signUp_wrote hbetween
      have hafter : accounts.after unicode hmac [.signUp other (anonymizedEmail other) someone]
          = between := by
        simp [Accounts.after, Accounts.perform, hbetween, Except.mapError]
      refine ⟨_, user, by rw [hafter, hwrote.row, if_pos rfl], hlive, ?_⟩
      rw [hafter, hemails]
      intro holder hholder
      rcases Table.lookup_insert_some hholder with ⟨rfl, -⟩ | ⟨-, hold⟩
      · rfl
      · exact absurd hold (hfree holder)
  obtain ⟨first, user, huser, hlive, hfirst⟩ := hlive
  obtain ⟨removed, hremoved⟩ := remove_live unicode hmac huser hlive hfirst
  obtain ⟨found, -, husers, hemails⟩ := removal_ok rfl hremoved
  refine ⟨first ++ [.remove other], { found with isDeleted := true }, ?_, rfl, ?_⟩
  · rw [Accounts.after_append]
    simp [Accounts.after, hremoved, Accounts.row, husers]
  · rw [Accounts.after_append]
    simp [Accounts.after, hremoved, hemails]

/-- After an account was removed, by `remove` or by `deleteSchool`, its address and its number stay
    free for a new one in every later state exactly when the account had no valid number, and an
    address that is nobody's placeholder. -/
theorem removal_frees_iff {before : List Operation} {operation : Operation} {removed : Accounts}
    {id email : String} {user : User}
    (hremoves : operation.removes (noAccounts.after unicode hmac before) = some id)
    (huser : (noAccounts.after unicode hmac before).row id = some user)
    (hemail : (noAccounts.after unicode hmac before).emails.lookup id = some email)
    (h : (noAccounts.after unicode hmac before).perform unicode hmac operation = .ok removed) :
    (∀ later, (removed.after unicode hmac later).Frees unicode hmac email user.phoneNumber)
      ↔ user.phoneNumber.bind (canonicalizePhone unicode) = none
        ∧ ∀ other, email ≠ anonymizedEmail other := by
  have hbefore : Sound unicode hmac (noAccounts.after unicode hmac before) :=
    (sound_noAccounts unicode hmac).after before
  have hsound : Sound unicode hmac removed := by
    obtain ⟨written, found, hwrote⟩ := perform_wrote h
    exact hbefore.wrote hwrote
  obtain ⟨old, hold, husers, hemails⟩ := removal_ok hremoves h
  rw [huser, Option.some.injEq] at hold
  subst hold
  have hrow : removed.row id = some { user with isDeleted := true } := by
    rw [Accounts.row, husers, AList.lookup_insert]
  -- Whoever else has the address in the new tables had it in the old ones, beside the account.
  have hholder : ∀ holder, removed.emails.lookup holder = some email → holder = id := by
    intro holder hholder
    rw [hemails] at hholder
    rcases Table.lookup_insert_some hholder with ⟨rfl, -⟩ | ⟨-, hold⟩
    · rfl
    · exact Accounts.apart _ holder id email hold hemail
  constructor
  · intro hall
    have hnumber : user.phoneNumber.bind (canonicalizePhone unicode) = none := by
      cases hcanonical : user.phoneNumber.bind (canonicalizePhone unicode) with
      | none => rfl
      | some canonical =>
        have hhash : user.phoneHash = some (hmac canonical) :=
          hbefore.hashed id user huser _ (bind_index hcanonical)
        exact absurd (hall []) (not_frees_number hrow rfl hhash hcanonical hholder)
    refine ⟨hnumber, ?_⟩
    rintro other rfl
    by_cases hother : other = id
    · subst hother
      exact not_frees_placeholder hrow rfl (by rw [hemails, AList.lookup_insert]) hnumber (hall [])
    · have hfree : ∀ holder, removed.emails.lookup holder ≠ some (anonymizedEmail other) := by
        intro holder htaken
        have heq := hholder holder htaken
        rw [heq, hemails, AList.lookup_insert, Option.some.injEq] at htaken
        exact hother (anonymizedEmail_injective htaken).symm
      obtain ⟨later, found, hfound, hdeleted, haddress⟩ := exists_placeholder hsound hfree
      exact not_frees_placeholder hfound hdeleted haddress hnumber (hall later)
  · rintro ⟨hnumber, hplain⟩ later
    exact frees_of_no_number (hsound.after later) hnumber hplain

theorem Accounts.after_accepted {accounts : Accounts} {operation : Operation}
    (h : (accounts.perform unicode hmac operation).isOk) :
    accounts.perform unicode hmac operation = .ok (accounts.after unicode hmac [operation]) := by
  unfold Accounts.after
  cases hperform : accounts.perform unicode hmac operation with
  | error refusal => rw [hperform] at h; cases h
  | ok next => rfl

def openedSchool : Accounts :=
  noAccounts.after ascii keyed [.provision "s1" "o1" "owner@school.ng" "Bola Ade"]

/-- The owner of a school was signed up without a number; the school is deleted, and another
    one opens. -/
theorem removal_frees_owner :
    ((openedSchool.after ascii keyed [.deleteSchool "s1"]).after ascii keyed
      [.provision "s2" "o2" "head@school.ng" "Ayo Ojo"]).Frees ascii keyed "owner@school.ng" none := by
  have huser : openedSchool.row "o1"
      = some ⟨some "Bola Ade", some "Bola Ade", none, none, false⟩ := by decide +kernel
  have hemail : openedSchool.emails.lookup "o1" = some "owner@school.ng" := by decide +kernel
  have haccepted : (openedSchool.perform ascii keyed (.deleteSchool "s1")).isOk := by decide +kernel
  refine (removal_frees_iff (by decide +kernel) huser hemail
    (Accounts.after_accepted haccepted)).2 ⟨rfl, fun other heq => ?_⟩ _
  have hhead := congrArg (fun text => text.toList.head?) heq
  simp [anonymizedEmail, toString] at hhead

/-- A parent signs up with a number and is removed. -/
def removedParent : Accounts :=
  noAccounts.after ascii keyed
    [.signUp "u1" "ada@lopay.ng" ⟨.text "Ada Obi", .absent, .text "0801 234-5678"⟩, .remove "u1"]

/-- The owner gives a number on the profile, and the school is deleted. -/
def closedSchool : Accounts :=
  openedSchool.after ascii keyed
    [.updateProfile "o1" ⟨.absent, .text "08012345678"⟩, .deleteSchool "s1"]

theorem removal_frees_needs_no_number :
    ¬removedParent.Frees ascii keyed "ada@lopay.ng" (some "+2348012345678")
      ∧ ¬closedSchool.Frees ascii keyed "owner@school.ng" (some "+2348012345678") := by
  have hnumber : (some "+2348012345678").bind (canonicalizePhone ascii)
      = some "+2348012345678" := by decide +kernel
  constructor
  · have huser : removedParent.row "u1" = some ⟨some "Ada Obi", some "Ada Obi",
        some "+2348012345678", some "hmac/+2348012345678", true⟩ := by decide +kernel
    have hrows : removedParent.emails.rows = [("u1", "deleted+u1@deleted.lopay")] := by
      decide +kernel
    refine not_frees_number huser rfl rfl hnumber fun holder hholder => ?_
    simpa [hrows] using Table.mem_rows.2 hholder
  · have huser : closedSchool.row "o1" = some ⟨some "Bola Ade", some "Bola Ade",
        some "+2348012345678", some "hmac/+2348012345678", true⟩ := by decide +kernel
    have hrows : closedSchool.emails.rows = [("o1", "deleted+o1@deleted.lopay")] := by
      decide +kernel
    refine not_frees_number huser rfl rfl hnumber fun holder hholder => ?_
    simpa [hrows] using Table.mem_rows.2 hholder

end Lopay.Users
