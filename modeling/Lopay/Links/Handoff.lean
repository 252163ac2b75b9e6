import Mathlib.Data.List.Infix
import Lopay.Links.ClaimUrl
import Lopay.Text

/-!
# The URLs of a Google sign-in

`oauth-handoff.ts`, `trusted-origins.ts` and `web-app-origin.ts`: which path a sign-in resumes on,
which client it returns to, and the URLs that carry both through the round trip. The parser of
URLs is the platform's; what is relied on is in `UrlParser.Standard`.
-/

namespace Lopay.Handoff

open Urlencoded ClaimUrl Text

def HANDOFF_TOKEN_PARAM : Text := "ott".toList

def HANDOFF_NEXT_PARAM : Text := "next".toList

def HANDOFF_RETURN_PARAM : Text := "return_to".toList

def HANDOFF_ERROR_PARAM : Text := "error".toList

def APP_CALLBACK_ROUTE : Text := "/auth/callback".toList

def APP_AUTH_ROUTE : Text := "/auth".toList

def MAX_NEXT_LENGTH : Nat := 128

/-- The length of a JavaScript string. -/
def utf16Length (text : Text) : Nat := (text.map fun c => if c.toNat < 0x10000 then 1 else 2).sum

/-- `^\/[A-Za-z0-9\-._~/]*$` -/
def SAFE_NEXT_PATH : Text → Bool
  | '/' :: rest => rest.all fun c =>
      c.isAlphanum || c = '-' || c = '.' || c = '_' || c = '~' || c = '/'
  | _ => false

/-- The in-app path to resume on; a value that is no string is `none`. -/
def sanitizeNextPath (raw : Option Text) : Option Text :=
  match raw with
  | none => none
  | some raw =>
    let trimmed := trim raw
    if trimmed = [] ∨ MAX_NEXT_LENGTH < utf16Length trimmed then none
    else if ['/', '/'].isPrefixOf trimmed then none
    else if ['.', '.'] <:+: trimmed then none
    else if SAFE_NEXT_PATH trimmed then some trimmed
    else none

/-! ### Origins -/

/-- What is read of `new URL(text)`; `none` where it throws. -/
structure UrlParser where
  origin : Text → Option Text
  protocol : Text → Option Text

/-- The origin of a scheme that is not special. -/
def nullOrigin : Text := "null".toList

/-- An origin is written without white space and without a fragment. -/
structure UrlParser.Standard (urls : UrlParser) : Prop where
  clean : ∀ text origin, urls.origin text = some origin → ∀ c ∈ origin,
    isSpace c = false ∧ c ≠ '#'

/-- The trusted entry stands for the origin that was asked for. -/
def matchesOrigin (urls : UrlParser) (candidate normalized trusted : Text) : Bool :=
  trusted = candidate || match urls.origin trusted with
    | some origin => origin = normalized && normalized ≠ nullOrigin
    | none => false

/-- Which origin the finished sign-in should return to. -/
def resolveReturnOrigin (urls : UrlParser) (requested : Option Text) (trustedOrigins : List Text)
    (fallback : Text) : Text :=
  match requested with
  | none => fallback
  | some requested =>
    let candidate := trim requested
    if candidate = [] then fallback
    else match urls.origin candidate with
      | none => fallback
      | some normalized =>
        (trustedOrigins.find? (matchesOrigin urls candidate normalized)).getD fallback

def trimTrailingSlash (origin : Text) : Text :=
  if origin.getLast? = some '/' then origin.dropLast else origin

def buildApiHandoffCallbackUrl (apiOrigin : Text) (next returnOrigin : Option Text) : Text :=
  let url := trimTrailingSlash apiOrigin ++ "/api/v1/auth/google/finish".toList
  let query := match next with
    | some next => if next = [] then [] else set HANDOFF_NEXT_PARAM next []
    | none => []
  let query := match returnOrigin with
    | some origin => if origin = [] then query else set HANDOFF_RETURN_PARAM origin query
    | none => query
  let qs := serialize query
  if qs = [] then url else url ++ '?' :: qs

/-- A URL inside the web client: everything but the origin is fragment. -/
def appUrl (webOrigin route : Text) (query : List (Text × Text)) : Text :=
  trimTrailingSlash webOrigin ++ "/#".toList ++ route ++ '?' :: serialize query

def buildAppHandoffUrl (webOrigin token : Text) (next : Option Text) : Text :=
  let query := [(HANDOFF_TOKEN_PARAM, token)]
  let query := match next with
    | some next => if next = [] then query else set HANDOFF_NEXT_PARAM next query
    | none => query
  appUrl webOrigin APP_CALLBACK_ROUTE query

def buildAppErrorUrl (webOrigin code : Text) : Text :=
  appUrl webOrigin APP_AUTH_ROUTE [(HANDOFF_ERROR_PARAM, code)]

def buildAppLinkErrorUrl (webOrigin code : Text) : Text :=
  appUrl webOrigin "/profile".toList [(HANDOFF_ERROR_PARAM, code)]

/-! ### Configuration -/

/-- A text that is there and not empty. -/
def truthy : Option Text → Option Text
  | some [] => none
  | text => text

structure Deployment where
  WEB_APP_URL : Option Text
  CORS_ORIGINS : Option Text
  BETTER_AUTH_URL : Option Text

def NATIVE_ORIGINS : List Text := ["capacitor://localhost".toList, "https://localhost".toList]

def LOCAL_DEV_ORIGINS : List Text :=
  ["http://localhost".toList, "http://localhost:5173".toList, "http://localhost:5174".toList]

/-- The allow-list, in the order of first mention. -/
def buildTrustedOrigins (corsOrigins betterAuthUrl : Option Text) (httpsDeployment : Bool) :
    List Text :=
  let configured := (((corsOrigins.getD []).splitOn ',').map trim).filter (· ≠ [])
  let origins := configured ++ NATIVE_ORIGINS
  let origins := if httpsDeployment then origins else origins ++ LOCAL_DEV_ORIGINS
  let origins := origins ++ (truthy (betterAuthUrl.map trim)).toList
  origins.eraseDups

def resolveWebAppOrigin (urls : UrlParser) (config : Deployment) : Option Text := do
  let explicit := config.WEB_APP_URL.map trim
  let origins := config.CORS_ORIGINS.map fun origins => origins.splitOn ','
  let firstCorsOrigin := (origins.bind List.head?).map trim
  let candidate ← truthy ((truthy explicit).or firstCorsOrigin)
  urls.origin candidate

/-- The origin, or `none` where an error names the variable to set. -/
def requireWebAppOrigin (urls : UrlParser) (config : Deployment) : Option Text :=
  truthy (resolveWebAppOrigin urls config)

def isHttpsUrl (urls : UrlParser) (raw : Option Text) : Bool :=
  match truthy raw with
  | some raw => urls.protocol (trim raw) = some "https:".toList
  | none => false

/-! ### `OAuthHandoffController` -/

/-- What is handed to Better Auth when a flow begins. -/
structure SocialFlow where
  callbackURL : Text
  errorCallbackURL : Text

section Controller

variable (urls : UrlParser) (config : Deployment)

def trustedOrigins : List Text :=
  buildTrustedOrigins config.CORS_ORIGINS config.BETTER_AUTH_URL
    (isHttpsUrl urls config.BETTER_AUTH_URL)

def apiOrigin : Text := config.BETTER_AUTH_URL.getD []

/-- The origin to return the finished sign-in to; `none` where the app's own is not configured. -/
def returnOrigin (requested : Option Text) : Option Text := do
  let fallback ← requireWebAppOrigin urls config
  pure (resolveReturnOrigin urls requested (trustedOrigins urls config) fallback)

/-- Begin a sign-in: what Better Auth is asked, and where the browser is sent. `url` is the
    address it answers with, if it does. -/
def start (next returnTo url : Option Text) : Option (SocialFlow × Text) := do
  let webOrigin ← returnOrigin urls config returnTo
  let safeNext := sanitizeNextPath next
  let flow :=
    { callbackURL := buildApiHandoffCallbackUrl (apiOrigin config) safeNext (some webOrigin)
      errorCallbackURL := webOrigin ++ "/#/auth".toList }
  match truthy url with
  | some url => pure (flow, url)
  | none => pure (flow, buildAppErrorUrl webOrigin "google_unavailable".toList)

/-- Hand the session to the web client; `minted` is the one-time token, if there is a session. -/
def finish (next returnTo minted : Option Text) : Option Text := do
  let webOrigin ← returnOrigin urls config returnTo
  let safeNext := sanitizeNextPath next
  match truthy minted with
  | some token => pure (buildAppHandoffUrl webOrigin token safeNext)
  | none => pure (buildAppErrorUrl webOrigin "session_not_found".toList)

/-- Begin attaching Google to an account; `url` is where Better Auth sends the browser, if the
    ticket was good. -/
def linkStart (ticket returnTo url : Option Text) : Option (Option SocialFlow × Text) := do
  let webOrigin ← returnOrigin urls config returnTo
  let refused := buildAppLinkErrorUrl webOrigin "unable_to_link_account".toList
  match truthy ticket with
  | none => pure (none, refused)
  | some _ =>
    let flow :=
      { callbackURL := webOrigin ++ "/#/profile".toList
        errorCallbackURL := webOrigin ++ "/#/profile".toList }
    pure (some flow, (truthy url).getD refused)

/-- The parameters of a URL that is asked for. -/
def queryOf (url : Text) : List (Text × Text) := ((after? '?' (requested url)).map parse).getD []

/-- The browser follows the callback. -/
def followed (callbackURL : Text) (minted : Option Text) : Option Text :=
  let query := queryOf callbackURL
  finish urls config (get query HANDOFF_NEXT_PARAM) (get query HANDOFF_RETURN_PARAM) minted

end Controller

/-- What the web client reads from the URL it is opened with. -/
def readHandoff (url : Text) : Option Text × Option Text :=
  let query := (((after? '#' url).bind (after? '?')).map ofQuery).getD []
  (get query HANDOFF_TOKEN_PARAM, get query HANDOFF_NEXT_PARAM)

/-! ### A safe path -/

/-- What a path has to be. -/
structure SafePath (path : Text) : Prop where
  nonempty : path ≠ []
  short : utf16Length path ≤ MAX_NEXT_LENGTH
  local_ : ['/', '/'].isPrefixOf path = false
  straight : ¬['.', '.'] <:+: path
  plain : SAFE_NEXT_PATH path

theorem sanitizeNextPath_some {raw : Option Text} {path : Text}
    (h : sanitizeNextPath raw = some path) : SafePath path := by
  cases raw with
  | none => cases h
  | some raw =>
    simp only [sanitizeNextPath] at h
    split at h
    · cases h
    next hempty =>
    split at h
    · cases h
    next hlocal =>
    split at h
    · cases h
    next hstraight =>
    split at h
    · next hplain =>
      rw [Option.some.inj h] at hempty hlocal hstraight hplain
      rw [not_or, not_lt] at hempty
      exact ⟨hempty.1, hempty.2, Bool.not_eq_true _ ▸ hlocal, hstraight, hplain⟩
    · cases h

/-- What a path consists of. -/
theorem SafePath.chars {path : Text} (h : SafePath path) : ∀ c ∈ path,
    c.isAlphanum ∨ c = '-' ∨ c = '.' ∨ c = '_' ∨ c = '~' ∨ c = '/' := by
  have hplain := h.plain
  intro c hc
  unfold SAFE_NEXT_PATH at hplain
  split at hplain
  · next rest =>
    rcases List.mem_cons.mp hc with rfl | hrest
    · simp
    · have hsafe := List.all_eq_true.mp hplain c hrest
      simp only [Bool.or_eq_true, decide_eq_true_eq] at hsafe
      grind
  · cases hplain

theorem SafePath.no_space {path : Text} (h : SafePath path) : ∀ c ∈ path, isSpace c = false := by
  intro c hc
  have hrange : 0x21 ≤ c.toNat ∧ c.toNat ≤ 0x7E := by
    rcases h.chars c hc with halnum | rfl | rfl | rfl | rfl | rfl
    · have hrange := alphanum_range halnum
      omega
    all_goals decide
  simp only [isSpace, Bool.or_eq_false_iff, Bool.and_eq_false_iff, decide_eq_false_iff_not]
  omega

/-- A path that was let through is let through as it is. -/
theorem SafePath.sanitized {path : Text} (h : SafePath path) :
    sanitizeNextPath (some path) = some path := by
  have hempty : ¬(path = [] ∨ MAX_NEXT_LENGTH < utf16Length path) := by
    rw [not_or, not_lt]
    exact ⟨h.nonempty, h.short⟩
  simp only [sanitizeNextPath, trim_eq_self h.no_space]
  rw [if_neg hempty, if_neg (by simp [h.local_]), if_neg h.straight, if_pos h.plain]

/-! ### A trusted origin -/

section Origins

variable {urls : UrlParser} {trusted : List Text} {fallback : Text} {requested : Option Text}

/-- Either some entry of the list stands for what was asked for, and the first one that does is
    taken, or it is the fallback. -/
theorem resolveReturnOrigin_cases :
    resolveReturnOrigin urls requested trusted fallback = fallback ∨
    ∃ candidate normalized origin, urls.origin candidate = some normalized ∧
      trusted.find? (matchesOrigin urls candidate normalized) = some origin ∧
      resolveReturnOrigin urls requested trusted fallback = origin := by
  cases requested with
  | none => exact .inl rfl
  | some requested =>
    by_cases hempty : trim requested = []
    · exact .inl (by simp [resolveReturnOrigin, hempty])
    cases horigin : urls.origin (trim requested) with
    | none => exact .inl (by simp [resolveReturnOrigin, hempty, horigin])
    | some normalized =>
      cases hfound : trusted.find? (matchesOrigin urls (trim requested) normalized) with
      | none => exact .inl (by simp [resolveReturnOrigin, hempty, horigin, hfound])
      | some origin =>
        exact .inr ⟨trim requested, normalized, origin, horigin, hfound,
          by simp [resolveReturnOrigin, hempty, horigin, hfound]⟩

/-- No other origin is returned to. -/
theorem resolveReturnOrigin_mem : resolveReturnOrigin urls requested trusted fallback ∈ trusted ∨
    resolveReturnOrigin urls requested trusted fallback = fallback := by
  rcases resolveReturnOrigin_cases with hfallback | ⟨_, _, origin, -, hfound, hresult⟩
  · exact .inr hfallback
  · rw [hresult]
    exact .inl (List.mem_of_find?_eq_some hfound)

/-- Asking for a text that needs no trimming. -/
theorem resolveReturnOrigin_some {candidate normalized : Text} (htrim : trim candidate = candidate)
    (hne : candidate ≠ []) (horigin : urls.origin candidate = some normalized) :
    resolveReturnOrigin urls (some candidate) trusted fallback =
      (trusted.find? (matchesOrigin urls candidate normalized)).getD fallback := by
  simp [resolveReturnOrigin, htrim, hne, horigin]

/-- Two texts that the same entries stand for: of one origin, or the same. -/
theorem matchesOrigin_eq {candidate normalized origin : Text}
    (horigin : urls.origin candidate = some normalized)
    (h : matchesOrigin urls candidate normalized origin) :
    urls.origin origin = some normalized ∧
      matchesOrigin urls origin normalized = matchesOrigin urls candidate normalized := by
  by_cases heq : origin = candidate
  · rw [heq]
    exact ⟨horigin, rfl⟩
  cases hparsed : urls.origin origin with
  | none => simp [matchesOrigin, heq, hparsed] at h
  | some parsed =>
    simp only [matchesOrigin, heq, hparsed, decide_false, Bool.false_or, Bool.and_eq_true,
      decide_eq_true_eq] at h
    rcases h with ⟨rfl, hnull⟩
    refine ⟨rfl, ?_⟩
    -- both stand for the origin itself, which is not `null`
    funext entry
    by_cases hentry : entry = origin
    · simp [matchesOrigin, hentry, hparsed, hnull]
    by_cases hentry' : entry = candidate
    · simp [matchesOrigin, hentry', horigin, hnull]
    · simp [matchesOrigin, hentry, hentry']

/-- An entry that was chosen is chosen again when it is asked for. -/
theorem resolveReturnOrigin_again {candidate normalized origin : Text}
    (horigin : urls.origin candidate = some normalized)
    (hfound : trusted.find? (matchesOrigin urls candidate normalized) = some origin)
    (htrim : trim origin = origin) (hne : origin ≠ []) :
    resolveReturnOrigin urls (some origin) trusted fallback = origin := by
  rcases matchesOrigin_eq horigin (List.find?_some hfound) with ⟨hparsed, hsame⟩
  rw [resolveReturnOrigin_some htrim hne hparsed, hsame, hfound, Option.getD_some]

/-- Asking for the origin that a flow has begun with gives one of the same origin, and asking for
    that one gives it again. -/
theorem resolveReturnOrigin_settles (htrusted : ∀ origin ∈ trusted, trim origin = origin ∧ origin ≠ [])
    (hfallback : trim fallback = fallback ∧ fallback ≠ []) :
    let begun := resolveReturnOrigin urls requested trusted fallback
    let back := resolveReturnOrigin urls (some begun) trusted fallback
    urls.origin back = urls.origin begun ∧
      resolveReturnOrigin urls (some back) trusted fallback = back := by
  intro begun back
  rcases @resolveReturnOrigin_cases urls trusted fallback requested with
    hbegun | ⟨candidate, normalized, origin, horigin, hfound, hbegun⟩
  · have hback : back = resolveReturnOrigin urls (some fallback) trusted fallback :=
      congrArg (fun origin => resolveReturnOrigin urls (some origin) trusted fallback) hbegun
    cases hparsed : urls.origin fallback with
    | none =>
      have hsame : resolveReturnOrigin urls (some fallback) trusted fallback = fallback := by
        simp [resolveReturnOrigin, hfallback.1, hparsed]
      rw [show begun = fallback from hbegun, hback, hsame]
      exact ⟨rfl, hsame⟩
    | some normalized =>
      rw [resolveReturnOrigin_some hfallback.1 hfallback.2 hparsed] at hback
      cases hfound : trusted.find? (matchesOrigin urls fallback normalized) with
      | none =>
        rw [hfound, Option.getD_none] at hback
        rw [show begun = fallback from hbegun, hback,
          resolveReturnOrigin_some hfallback.1 hfallback.2 hparsed, hfound, Option.getD_none]
        exact ⟨rfl, rfl⟩
      | some origin =>
        rw [hfound, Option.getD_some] at hback
        rcases htrusted origin (List.mem_of_find?_eq_some hfound) with ⟨htrim, hne⟩
        rw [show begun = fallback from hbegun, hback, hparsed]
        exact ⟨(matchesOrigin_eq hparsed (List.find?_some hfound)).1,
          resolveReturnOrigin_again hparsed hfound htrim hne⟩
  · rcases htrusted origin (List.mem_of_find?_eq_some hfound) with ⟨htrim, hne⟩
    have hagain : resolveReturnOrigin urls (some origin) trusted fallback = origin :=
      resolveReturnOrigin_again horigin hfound htrim hne
    have hback : back = origin := (congrArg
      (fun origin => resolveReturnOrigin urls (some origin) trusted fallback) hbegun).trans hagain
    rw [show begun = origin from hbegun, hback]
    exact ⟨rfl, hagain⟩

end Origins

/-! ### What is configured -/

theorem truthy_some {text : Option Text} {t : Text} (h : truthy text = some t) :
    text = some t ∧ t ≠ [] := by
  unfold truthy at h
  split at h
  · cases h
  · next hne =>
    refine ⟨h, ?_⟩
    rintro rfl
    exact hne h

theorem trustedOrigins_clean (corsOrigins betterAuthUrl : Option Text) (https : Bool) :
    ∀ origin ∈ buildTrustedOrigins corsOrigins betterAuthUrl https,
      trim origin = origin ∧ origin ≠ [] := by
  intro origin hmem
  have hnative : ∀ entry ∈ NATIVE_ORIGINS ++ LOCAL_DEV_ORIGINS, trim entry = entry ∧ entry ≠ [] := by
    decide
  have hsources : origin ∈ (((corsOrigins.getD []).splitOn ',').map trim).filter (· ≠ []) ∨
      origin ∈ NATIVE_ORIGINS ++ LOCAL_DEV_ORIGINS ∨
      origin ∈ (truthy (betterAuthUrl.map trim)).toList := by
    simp only [buildTrustedOrigins, List.mem_eraseDups] at hmem
    cases https <;> simp only [List.mem_append] at hmem ⊢ <;> grind
  rcases hsources with hconfigured | hknown | hself
  · rcases List.mem_filter.mp hconfigured with ⟨hentry, hne⟩
    rcases List.mem_map.mp hentry with ⟨entry, -, rfl⟩
    exact ⟨trim_trim entry, of_decide_eq_true hne⟩
  · exact hnative origin hknown
  · rcases truthy_some (Option.mem_toList.mp hself) with ⟨hentry, hne⟩
    rcases Option.map_eq_some_iff.mp hentry with ⟨entry, -, rfl⟩
    exact ⟨trim_trim entry, hne⟩

theorem requireWebAppOrigin_clean {urls : UrlParser} (hurls : urls.Standard) {config : Deployment}
    {origin : Text} (h : requireWebAppOrigin urls config = some origin) :
    trim origin = origin ∧ origin ≠ [] ∧ '#' ∉ origin := by
  rcases truthy_some h with ⟨hresolved, hne⟩
  simp only [resolveWebAppOrigin, Option.bind_eq_bind, Option.bind_eq_some_iff] at hresolved
  rcases hresolved with ⟨candidate, -, horigin⟩
  have hclean := hurls.clean candidate origin horigin
  exact ⟨trim_eq_self fun c hc => (hclean c hc).1, hne, fun hc => (hclean '#' hc).2 rfl⟩

/-! ### Reading the URLs -/

theorem mem_trimTrailingSlash {origin : Text} {c : Char} (h : c ∈ trimTrailingSlash origin) :
    c ∈ origin := by
  unfold trimTrailingSlash at h
  split at h
  · exact (List.dropLast_sublist origin).subset h
  · exact h

theorem requested_prefix (before rest : Text) : requested (before ++ '#' :: rest) <+: before := by
  induction before with
  | nil => simp [requested]
  | cons c before ih =>
    by_cases hc : c = '#'
    · simp [requested, hc]
    · simpa [requested, hc] using ih

theorem requested_self {url : Text} (h : '#' ∉ url) : requested url = url := by
  unfold requested
  rw [List.takeWhile_eq_self_iff]
  intro c hc
  exact decide_eq_true fun heq => h (heq ▸ hc)

theorem serialize_ne_nil {pairs : List (Text × Text)} (h : pairs ≠ []) : serialize pairs ≠ [] := by
  intro hnil
  have hparsed := parse_serialize pairs
  rw [hnil] at hparsed
  exact h hparsed.symm

theorem appUrl_eq (webOrigin route : Text) (query : List (Text × Text)) :
    appUrl webOrigin route query =
      (trimTrailingSlash webOrigin ++ ['/']) ++ '#' :: (route ++ '?' :: serialize query) := by
  simp [appUrl]

/-- A URL inside the web client is asked for at the client, whatever it carries. -/
theorem requested_appUrl (webOrigin route : Text) (query : List (Text × Text)) :
    requested (appUrl webOrigin route query) <+: trimTrailingSlash webOrigin ++ ['/'] := by
  rw [appUrl_eq]
  exact requested_prefix _ _

/-- The parameters in its fragment are read back. -/
theorem fragment_appUrl {webOrigin route : Text} (query : List (Text × Text))
    (horigin : '#' ∉ webOrigin) (hroute : '?' ∉ route) :
    ((after? '#' (appUrl webOrigin route query)).bind (after? '?')).map ofQuery = some query := by
  have hbefore : '#' ∉ trimTrailingSlash webOrigin ++ ['/'] := by
    simp only [List.mem_append, List.mem_singleton, not_or]
    exact ⟨fun hmem => horigin (mem_trimTrailingSlash hmem), by decide⟩
  rw [appUrl_eq, after?_cut _ hbefore, Option.bind_some, after?_cut _ hroute, Option.map_some,
    ofQuery_serialize]

/-- The web client reads the token and the path it was sent. -/
theorem readHandoff_build {webOrigin token : Text} {next : Option Text} (horigin : '#' ∉ webOrigin)
    (hnext : ∀ path, next = some path → path ≠ []) :
    readHandoff (buildAppHandoffUrl webOrigin token next) = (some token, next) := by
  have hroute : '?' ∉ APP_CALLBACK_ROUTE := by decide
  have hparams : HANDOFF_TOKEN_PARAM ≠ HANDOFF_NEXT_PARAM := by decide
  simp only [readHandoff, buildAppHandoffUrl]
  rw [fragment_appUrl _ horigin hroute, Option.getD_some]
  cases next with
  | none => simp [get_cons, hparams]
  | some path =>
    simp only [if_neg (hnext path rfl)]
    rw [get_set_of_ne hparams, get_set_self, get_cons, if_pos rfl]

/-- What `finish` is called with when the browser follows the callback. -/
theorem queryOf_callback {api webOrigin : Text} {next : Option Text} (hhash : '#' ∉ api)
    (hmark : '?' ∉ api) (hnext : ∀ path, next = some path → path ≠ []) (horigin : webOrigin ≠ []) :
    let query := queryOf (buildApiHandoffCallbackUrl api next (some webOrigin))
    get query HANDOFF_NEXT_PARAM = next ∧ get query HANDOFF_RETURN_PARAM = some webOrigin := by
  intro query
  have hparams : HANDOFF_NEXT_PARAM ≠ HANDOFF_RETURN_PARAM := by decide
  obtain ⟨pairs, hurl, hpairs⟩ : ∃ pairs, buildApiHandoffCallbackUrl api next (some webOrigin) =
      (trimTrailingSlash api ++ "/api/v1/auth/google/finish".toList) ++ '?' :: serialize pairs ∧
      get pairs HANDOFF_NEXT_PARAM = next ∧ get pairs HANDOFF_RETURN_PARAM = some webOrigin := by
    have hqs : ∀ query, serialize (set HANDOFF_RETURN_PARAM webOrigin query) ≠ [] := by
      intro query
      apply serialize_ne_nil
      intro hnil
      have hget := get_set_self query HANDOFF_RETURN_PARAM webOrigin
      rw [hnil] at hget
      cases hget
    cases next with
    | none =>
      refine ⟨set HANDOFF_RETURN_PARAM webOrigin [], ?_, ?_, get_set_self _ _ _⟩
      · simp only [buildApiHandoffCallbackUrl, if_neg horigin, if_neg (hqs [])]
      · rw [get_set_of_ne hparams, get_nil]
    | some path =>
      have hpath := hnext path rfl
      refine ⟨set HANDOFF_RETURN_PARAM webOrigin (set HANDOFF_NEXT_PARAM path []), ?_, ?_,
        get_set_self _ _ _⟩
      · simp only [buildApiHandoffCallbackUrl, if_neg horigin, if_neg hpath, if_neg (hqs _)]
      · rw [get_set_of_ne hparams, get_set_self]
  have hbase : ∀ c, c ∉ api → c ∉ "/api/v1/auth/google/finish".toList →
      c ∉ trimTrailingSlash api ++ "/api/v1/auth/google/finish".toList := by
    intro c hc hpath hmem
    rcases List.mem_append.mp hmem with hmem | hmem
    · exact hc (mem_trimTrailingSlash hmem)
    · exact hpath hmem
  have hwhole : '#' ∉ (trimTrailingSlash api ++ "/api/v1/auth/google/finish".toList) ++
      '?' :: serialize pairs := by
    intro hmem
    rcases List.mem_append.mp hmem with hmem | hmem
    · exact hbase '#' hhash (by decide) hmem
    · rcases List.mem_cons.mp hmem with heq | hmem
      · exact absurd heq (by decide)
      · exact (serialize_stays hmem).1 rfl
  have hquery : query = pairs := by
    simp only [query, queryOf]
    rw [hurl, requested_self hwhole, after?_cut _ (hbase '?' hmark (by decide)), Option.map_some,
      parse_serialize, Option.getD_some]
  rw [hquery]
  exact hpairs

/-! ### The round trip -/

section RoundTrip

variable {urls : UrlParser} {config : Deployment}

/-- Wherever the controller sends a browser, apart from where Better Auth does. -/
theorem returnOrigin_admitted {requested : Option Text} {webOrigin : Text}
    (h : returnOrigin urls config requested = some webOrigin) :
    webOrigin ∈ trustedOrigins urls config ∨ requireWebAppOrigin urls config = some webOrigin := by
  simp only [returnOrigin, Option.bind_eq_bind, Option.bind_eq_some_iff] at h
  rcases h with ⟨fallback, hfallback, hresult⟩
  rw [← Option.some.inj hresult]
  rcases resolveReturnOrigin_mem with hmem | hsame
  · exact .inl hmem
  · rw [hsame]
    exact .inr hfallback

/-- The browser is sent to a screen of the web client, at a trusted origin or the app's own. -/
def Lands (urls : UrlParser) (config : Deployment) (location : Text) : Prop :=
  ∃ webOrigin, (webOrigin ∈ trustedOrigins urls config ∨
      requireWebAppOrigin urls config = some webOrigin) ∧
    ∃ screen, location = trimTrailingSlash webOrigin ++ "/#".toList ++ screen

theorem appUrl_lands {requested : Option Text} {webOrigin : Text}
    (h : returnOrigin urls config requested = some webOrigin) (route : Text)
    (query : List (Text × Text)) : Lands urls config (appUrl webOrigin route query) := by
  refine ⟨webOrigin, returnOrigin_admitted h, route ++ '?' :: serialize query, ?_⟩
  simp [appUrl]

/-- Whatever the three routes are called with, they send the browser to the address that Better
    Auth has given, or to a screen of the web client at a trusted origin or the app's own. -/
theorem controller_lands :
    (∀ next returnTo url flow location,
      start urls config next returnTo url = some (flow, location) →
      url = some location ∨ Lands urls config location) ∧
    (∀ next returnTo minted location, finish urls config next returnTo minted = some location →
      Lands urls config location) ∧
    ∀ ticket returnTo url flow location,
      linkStart urls config ticket returnTo url = some (flow, location) →
      url = some location ∨ Lands urls config location := by
  refine ⟨?_, ?_, ?_⟩
  · intro next returnTo url flow location h
    simp only [start, Option.bind_eq_bind, Option.bind_eq_some_iff] at h
    rcases h with ⟨webOrigin, horigin, h⟩
    split at h
    · next url' hurl =>
      rw [← (Prod.mk.inj (Option.some.inj h)).2]
      exact .inl (truthy_some hurl).1
    · rw [← (Prod.mk.inj (Option.some.inj h)).2]
      exact .inr (appUrl_lands horigin _ _)
  · intro next returnTo minted location h
    simp only [finish, Option.bind_eq_bind, Option.bind_eq_some_iff] at h
    rcases h with ⟨webOrigin, horigin, h⟩
    split at h
    · rw [← Option.some.inj h]
      exact appUrl_lands horigin _ _
    · rw [← Option.some.inj h]
      exact appUrl_lands horigin _ _
  · intro ticket returnTo url flow location h
    simp only [linkStart, Option.bind_eq_bind, Option.bind_eq_some_iff] at h
    rcases h with ⟨webOrigin, horigin, h⟩
    split at h
    · rw [← (Prod.mk.inj (Option.some.inj h)).2]
      exact .inr (appUrl_lands horigin _ _)
    · rw [← (Prod.mk.inj (Option.some.inj h)).2]
      cases hurl : truthy url with
      | none => exact .inr (appUrl_lands horigin _ _)
      | some url' => exact .inl (truthy_some hurl).1

theorem finish_minted {next returnTo : Option Text} {webOrigin token : Text} (htoken : token ≠ [])
    (h : returnOrigin urls config returnTo = some webOrigin) :
    finish urls config next returnTo (some token) =
      some (buildAppHandoffUrl webOrigin token (sanitizeNextPath next)) := by
  have htruthy : truthy (some token) = some token := by
    cases token with
    | nil => exact absurd rfl htoken
    | cons c token => rfl
  simp [finish, h, htruthy]

/-- A path that is let through when a flow begins is let through when it comes back. -/
theorem sanitizeNextPath_twice (next : Option Text) :
    sanitizeNextPath (sanitizeNextPath next) = sanitizeNextPath next := by
  cases hnext : sanitizeNextPath next with
  | none => rfl
  | some path => exact (sanitizeNextPath_some hnext).sanitized

/-- A sign-in that begins with any `next` and any `return_to` comes back through the callback to
    a client of the origin it began with, which asks for itself from then on, and the client reads
    from the URL it is opened with the token and the path that was let through. -/
theorem handoff_roundTrip (hurls : urls.Standard)
    (hapi : '#' ∉ apiOrigin config ∧ '?' ∉ apiOrigin config)
    (htrusted : ∀ origin ∈ trustedOrigins urls config, '#' ∉ origin)
    {next returnTo url : Option Text} {flow : SocialFlow} {location : Text}
    (hstart : start urls config next returnTo url = some (flow, location)) {token : Text}
    (htoken : token ≠ []) :
    ∃ begun webOrigin, returnOrigin urls config returnTo = some begun ∧
      urls.origin webOrigin = urls.origin begun ∧
      returnOrigin urls config (some webOrigin) = some webOrigin ∧
      followed urls config flow.callbackURL (some token) =
        some (buildAppHandoffUrl webOrigin token (sanitizeNextPath next)) ∧
      readHandoff (buildAppHandoffUrl webOrigin token (sanitizeNextPath next)) =
        (some token, sanitizeNextPath next) := by
  simp only [start, Option.bind_eq_bind, Option.bind_eq_some_iff] at hstart
  rcases hstart with ⟨begun, hbegun, hflow⟩
  have hcallback : flow.callbackURL =
      buildApiHandoffCallbackUrl (apiOrigin config) (sanitizeNextPath next) (some begun) := by
    split at hflow <;> rw [← (Prod.mk.inj (Option.some.inj hflow)).1]
  have hpath : ∀ path, sanitizeNextPath next = some path → path ≠ [] := fun path h =>
    (sanitizeNextPath_some h).nonempty
  have hreturn := hbegun
  simp only [returnOrigin, Option.bind_eq_bind, Option.bind_eq_some_iff] at hreturn
  rcases hreturn with ⟨fallback, hfallback, hresult⟩
  have hclean : ∀ origin ∈ trustedOrigins urls config, trim origin = origin ∧ origin ≠ [] :=
    trustedOrigins_clean _ _ _
  rcases requireWebAppOrigin_clean hurls hfallback with ⟨htrim, hne, hhash⟩
  have hreturned : ∀ requested, returnOrigin urls config requested =
      some (resolveReturnOrigin urls requested (trustedOrigins urls config) fallback) := by
    intro requested
    simp [returnOrigin, hfallback]
  have hsettles := @resolveReturnOrigin_settles urls (trustedOrigins urls config) fallback returnTo
    hclean ⟨htrim, hne⟩
  rw [Option.some.inj hresult] at hsettles
  have hadmitted : ∀ requested origin,
      resolveReturnOrigin urls requested (trustedOrigins urls config) fallback = origin →
      origin ≠ [] ∧ '#' ∉ origin := by
    rintro requested origin rfl
    rcases @resolveReturnOrigin_mem urls (trustedOrigins urls config) fallback requested with
      hmem | hsame
    · exact ⟨(hclean _ hmem).2, htrusted _ hmem⟩
    · rw [hsame]
      exact ⟨hne, hhash⟩
  have hquery := queryOf_callback hapi.1 hapi.2 hpath (hadmitted returnTo begun
    (Option.some.inj hresult)).1
  refine ⟨begun, _, hbegun, hsettles.1, ?_, ?_, readHandoff_build (hadmitted _ _ rfl).2 hpath⟩
  · rw [hreturned, hsettles.2]
  · rw [followed, hcallback, hquery.1, hquery.2, finish_minted htoken (hreturned (some begun)),
      sanitizeNextPath_twice]

/-- A parser that knows two addresses. -/
def knownUrls : UrlParser where
  origin text :=
    if text = "https://app.lopay.test".toList ∨ text = "https://app.lopay.test/".toList then
      some "https://app.lopay.test".toList
    else if text = "https://api.lopay.test".toList then some text
    else if text = "capacitor://localhost".toList then some nullOrigin
    else none
  protocol text := if text = "https://api.lopay.test".toList then some "https:".toList else none

theorem knownUrls_standard : knownUrls.Standard := by
  constructor
  intro text origin h
  have hknown : origin ∈ ["https://app.lopay.test".toList, "https://api.lopay.test".toList,
      nullOrigin] := by
    simp only [knownUrls] at h
    split at h
    · simp [← Option.some.inj h]
    split at h
    · next heq => simp [← Option.some.inj h, heq]
    split at h
    · simp [← Option.some.inj h]
    · cases h
  have hclean : ∀ origin ∈ ["https://app.lopay.test".toList, "https://api.lopay.test".toList,
      nullOrigin], ∀ c ∈ origin, isSpace c = false ∧ c ≠ '#' := by decide
  exact hclean origin hknown

/-- The web client is configured with a slash behind it. -/
def production : Deployment where
  WEB_APP_URL := none
  CORS_ORIGINS := some "https://app.lopay.test/".toList
  BETTER_AUTH_URL := some "https://api.lopay.test".toList

/-- Nobody has said where to return to: the flow begins with the origin of the web client, and
    comes back to the entry that stands for it. -/
theorem handoff_roundTrip_slash : ∃ flow location,
    start knownUrls production (some " /history ".toList) none (some "https://google.test".toList) =
      some (flow, location) ∧
    ∃ begun webOrigin, returnOrigin knownUrls production none = some begun ∧
      knownUrls.origin webOrigin = knownUrls.origin begun ∧
      returnOrigin knownUrls production (some webOrigin) = some webOrigin ∧
      followed knownUrls production flow.callbackURL (some "one-time".toList) =
        some (buildAppHandoffUrl webOrigin "one-time".toList
          (sanitizeNextPath (some " /history ".toList))) ∧
      readHandoff (buildAppHandoffUrl webOrigin "one-time".toList
          (sanitizeNextPath (some " /history ".toList))) =
        (some "one-time".toList, sanitizeNextPath (some " /history ".toList)) := by
  have hstarts : (start knownUrls production (some " /history ".toList) none
      (some "https://google.test".toList)).isSome := by decide
  rcases Option.isSome_iff_exists.mp hstarts with ⟨⟨flow, location⟩, hstart⟩
  have htrusted : ∀ origin ∈ trustedOrigins knownUrls production, '#' ∉ origin := by decide
  exact ⟨flow, location, hstart, handoff_roundTrip knownUrls_standard (by decide) htrusted hstart
    (by decide)⟩

end RoundTrip

end Lopay.Handoff
