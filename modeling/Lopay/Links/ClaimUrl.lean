import Mathlib.Data.List.TakeWhile
import Lopay.Encoding.Urlencoded
import Lopay.Invites.Policy

/-!
# The link a school sends a parent

`claim-url.ts`: how the link is built and how the token is read back out of it. Everything
behind the `#` stays in the browser, so the token is sent to nobody.
-/

namespace Lopay.ClaimUrl

open Urlencoded

/-- Route the claim screen is mounted at, inside the hash. -/
def CLAIM_ROUTE : Text := "/claim-invite".toList

/-- Query parameter the token travels in, within the fragment. -/
def CLAIM_TOKEN_PARAM : Text := "token".toList

def buildClaimUrl (origin rawToken : Text) : Text :=
  let query := [(CLAIM_TOKEN_PARAM, rawToken)]
  origin ++ "/#".toList ++ CLAIM_ROUTE ++ '?' :: serialize query

/-- What follows the first `mark`, if there is one. -/
def after? (mark : Char) (text : Text) : Option Text :=
  match text.dropWhile (· ≠ mark) with
  | [] => none
  | _ :: rest => some rest

/-- The token in the fragment of a link, and nowhere else. -/
def parseClaimUrlToken (claimUrl : Text) : Option Text := do
  let fragment ← after? '#' claimUrl
  let query ← after? '?' fragment
  get (ofQuery query) CLAIM_TOKEN_PARAM

/-- What a browser asks for: a link up to its fragment. -/
def requested (url : Text) : Text := url.takeWhile (· ≠ '#')

/-! ### Cutting a link -/

theorem after?_cut {mark : Char} {before : Text} (rest : Text) (h : mark ∉ before) :
    after? mark (before ++ mark :: rest) = some rest := by
  have hbefore : ∀ c ∈ before, decide (c ≠ mark) = true := by
    intro c hc
    exact decide_eq_true fun heq => h (heq ▸ hc)
  unfold after?
  rw [List.dropWhile_append_of_pos hbefore, List.dropWhile_cons, if_neg (by simp)]

theorem after?_none {mark : Char} {text : Text} (h : mark ∉ text) : after? mark text = none := by
  have htext : ∀ c ∈ text, decide (c ≠ mark) = true := by
    intro c hc
    exact decide_eq_true fun heq => h (heq ▸ hc)
  unfold after?
  rw [List.dropWhile_eq_nil_iff.mpr htext]

theorem requested_cut {before : Text} (rest : Text) (h : '#' ∉ before) :
    requested (before ++ '#' :: rest) = before := by
  have hbefore : ∀ c ∈ before, decide (c ≠ '#') = true := by
    intro c hc
    exact decide_eq_true fun heq => h (heq ▸ hc)
  unfold requested
  rw [List.takeWhile_append_of_pos hbefore, List.takeWhile_cons, if_neg (by simp), List.append_nil]

/-- The parameters of a written query are the pairs it was written from. -/
theorem ofQuery_serialize (pairs : List (Text × Text)) : ofQuery (serialize pairs) = pairs := by
  have hplain : ∀ text : Text, (∀ c ∈ text, c ≠ '?') → ofQuery text = parse text := by
    intro text htext
    unfold ofQuery
    split
    · exact absurd rfl (htext '?' List.mem_cons_self)
    · rfl
  rw [hplain _ fun c hc => (serialize_stays hc).2.1, parse_serialize]

/-! ### The round trip -/

variable {origin : Text}

/-- The link as the browser cuts it. -/
theorem buildClaimUrl_eq (origin rawToken : Text) : buildClaimUrl origin rawToken =
    (origin ++ ['/']) ++ '#' :: (CLAIM_ROUTE ++ '?' :: serialize [(CLAIM_TOKEN_PARAM, rawToken)]) := by
  simp [buildClaimUrl]

/-- Only the fragment is looked at. -/
theorem parseClaimUrlToken_cut {before : Text} (fragment : Text) (h : '#' ∉ before) :
    parseClaimUrlToken (before ++ '#' :: fragment) =
      (after? '?' fragment).bind fun query => get (ofQuery query) CLAIM_TOKEN_PARAM := by
  rw [parseClaimUrlToken, after?_cut _ h]
  rfl

theorem buildClaimUrl_requested (horigin : '#' ∉ origin) (rawToken : Text) :
    requested (buildClaimUrl origin rawToken) = origin ++ ['/'] := by
  have hbefore : '#' ∉ origin ++ ['/'] := by simpa using horigin
  rw [buildClaimUrl_eq]
  exact requested_cut _ hbefore

theorem parseClaimUrlToken_build (horigin : '#' ∉ origin) (rawToken : Text) :
    parseClaimUrlToken (buildClaimUrl origin rawToken) = some rawToken := by
  have hbefore : '#' ∉ origin ++ ['/'] := by simpa using horigin
  have hroute : '?' ∉ CLAIM_ROUTE := by decide
  rw [buildClaimUrl_eq, parseClaimUrlToken_cut _ hbefore, after?_cut _ hroute, Option.bind_some,
    ofQuery_serialize, get_cons, if_pos rfl]

/-- Whatever the token is made of, it is read back from the link, what is requested when the
    link is opened does not depend on it, and a token in front of a fragment is not found. -/
theorem claimUrl_roundTrip (horigin : '#' ∉ origin) (rawToken : Text) :
    parseClaimUrlToken (buildClaimUrl origin rawToken) = some rawToken ∧
    requested (buildClaimUrl origin rawToken) = origin ++ ['/'] ∧
    ∀ before fragment, '#' ∉ before → parseClaimUrlToken before = none ∧
      parseClaimUrlToken (before ++ '#' :: fragment) = parseClaimUrlToken ('#' :: fragment) := by
  constructor
  · exact parseClaimUrlToken_build horigin rawToken
  constructor
  · exact buildClaimUrl_requested horigin rawToken
  · intro before fragment h
    constructor
    · rw [parseClaimUrlToken, after?_none h]
      rfl
    · have hempty : '#' ∉ ([] : Text) := List.not_mem_nil
      rw [parseClaimUrlToken_cut _ h, ← parseClaimUrlToken_cut _ hempty, List.nil_append]

/-- A token that would break the link if it were written as it is. -/
theorem claimUrl_roundTrip_awkward :
    let origin := "https://app.lopay.test".toList
    let rawToken := "a&b=c d#e+f".toList
    '#' ∉ origin ∧ parseClaimUrlToken (buildClaimUrl origin rawToken) = some rawToken ∧
      requested (buildClaimUrl origin rawToken) = origin ++ ['/'] ∧
      ∀ before fragment, '#' ∉ before → parseClaimUrlToken before = none ∧
        parseClaimUrlToken (before ++ '#' :: fragment) = parseClaimUrlToken ('#' :: fragment) :=
  have horigin : '#' ∉ "https://app.lopay.test".toList := by decide
  ⟨horigin, claimUrl_roundTrip horigin _⟩

/-! ### Minted tokens -/

/-- A token as it is minted stands in the link as it is. -/
theorem buildClaimUrl_minted {origin rawToken : String} (h : Invites.hasTokenShape rawToken) :
    buildClaimUrl origin.toList rawToken.toList =
      (Invites.buildClaimUrl origin rawToken).toList := by
  have hplain : IsPlain rawToken.toList := by
    intro c hc
    rw [Invites.hasTokenShape, decide_eq_true_iff] at h
    have hc := List.all_eq_true.mp h.2 c hc
    simp only [Bool.or_eq_true, decide_eq_true_eq] at hc
    grind
  have hparam : IsPlain CLAIM_TOKEN_PARAM := by
    intro c hc
    have hletters : CLAIM_TOKEN_PARAM.all Char.isAlphanum := by decide
    exact .inl (List.all_eq_true.mp hletters c hc)
  have hshape : "/#/claim-invite?token=".toList =
      "/#".toList ++ (CLAIM_ROUTE ++ '?' :: (CLAIM_TOKEN_PARAM ++ ['='])) := by decide
  rw [Invites.buildClaimUrl, String.toList_append, String.toList_append, hshape, buildClaimUrl,
    serialize_plain hparam hplain]
  simp only [List.append_assoc, List.cons_append, List.nil_append]

end Lopay.ClaimUrl
