import Lopay.Text

/-!
# The client of a request

`common/client-ip.ts`: which text names the caller, what is taken off it, and the key under which
the rate limiter counts. Header names are those of `req.headers`, in lower case.
-/

namespace Lopay.Ip

open Text

/-- A header as Node gives it: once, or as the list of its occurrences. -/
inductive HeaderValue where
  | one (raw : List Char)
  | many (raws : List (List Char))

structure ClientIpRequest where
  headers : String → Option HeaderValue
  ip : Option (List Char)
  remoteAddress : Option (List Char)

/-! ### Normalisation -/

/-- `/^\[([^\]]+)\](?::\d+)?$/`, by what it captures. -/
def bracketed : List Char → Option (List Char)
  | '[' :: rest =>
      let inner := rest.takeWhile (· ≠ ']')
      match rest.dropWhile (· ≠ ']') with
      | [']'] => if inner = [] then none else some inner
      | ']' :: ':' :: port =>
          if inner = [] ∨ port = [] ∨ ¬port.all Char.isDigit then none else some inner
      | _ => none
  | _ => none

/-- `\d{1,3}(?:\.\d{1,3}){3}`, the whole text. -/
def dottedQuad (text : List Char) : Bool :=
  let parts := text.splitOn '.'
  parts.length = 4
    && parts.all fun part => 1 ≤ part.length && part.length ≤ 3 && part.all Char.isDigit

/-- `/^::ffff:(\d{1,3}(?:\.\d{1,3}){3})$/i`, by what it captures. -/
def mappedIpv4 (value : List Char) : Option (List Char) :=
  match value.splitOn ':' with
  | [[], [], ffff, quad] =>
      if ffff.map Char.toLower = ['f', 'f', 'f', 'f'] ∧ dottedQuad quad then some quad else none
  | _ => none

/-- Take off what two spellings of one address may differ in. -/
def normalizeIp (raw : List Char) : Option (List Char) :=
  let value := trim raw
  if value = [] then none
  else
    let value := (bracketed value).getD value
    -- A single colon, so that an IPv6 address is never cut.
    let value :=
      if value.count ':' = 1 ∧ '.' ∈ value then value.takeWhile (· ≠ ':') else value
    let value := (mappedIpv4 value).getD value
    let value := value.takeWhile (· ≠ '%')
    if value = [] then none else some value

/-- First entry of a forwarded-for style header value. -/
def parseForwardedIp (raw : HeaderValue) : Option (List Char) :=
  let first :=
    match raw with
    | .one raw => some raw
    | .many raws => raws.head?
  match first with
  | none => none
  | some first =>
      let candidate := trim (first.takeWhile (· ≠ ','))
      if candidate = [] then none else normalizeIp candidate

/-! ### The /64 -/

/-- `ip.split('::')`. -/
def splitDouble : List Char → List (List Char)
  | ':' :: ':' :: rest => [] :: splitDouble rest
  | c :: rest => (splitDouble rest).modifyHead (c :: ·)
  | [] => [[]]

/-- The groups of one side of `::`. -/
def sideGroups (side : List Char) : List (List Char) :=
  if side = [] then [] else side.splitOn ':'

/-- The groups of the text, `::` expanded so that they can be counted positionally. -/
def expandedGroups (ip : List Char) : List (List Char) :=
  let pieces := splitDouble ip
  let headGroups := sideGroups (pieces.headD [])
  let tailGroups := sideGroups (pieces.tail.headD [])
  let missing := 8 - headGroups.length - tailGroups.length
  if 1 < pieces.length then headGroups ++ List.replicate missing ['0'] ++ tailGroups
  else ip.splitOn ':'

/-- Collapse an IPv6 address to its leading `prefixBits`; IPv4 is returned untouched. -/
def collapseIpv6 (ip : List Char) (prefixBits : Nat) : List Char :=
  if ':' ∉ ip then ip
  else
    let groups := expandedGroups ip
    if groups.length ≠ 8 then ip
    else
      let keep := min 8 (prefixBits / 16)
      let masked := (groups.take keep ++ List.replicate (8 - keep) ['0']).map fun group =>
        if group = [] then ['0'] else group.map Char.toLower
      [':'].intercalate masked

/-- The caller's IP, or none when it cannot be established. -/
def resolveClientIp (req : ClientIpRequest) (headerName : Option String) : Option (List Char) :=
  let fromHeader := headerName.bind fun name => (req.headers name).bind parseForwardedIp
  match fromHeader with
  | some ip => some ip
  | none =>
      match req.ip.orElse fun _ => req.remoteAddress with
      | some [] | none => none
      | some direct => normalizeIp direct

/-- The rate-limit bucket of a request. -/
def clientIpKey (req : ClientIpRequest) (headerName : Option String) : List Char :=
  match resolveClientIp req headerName with
  | some ip => collapseIpv6 ip 64
  | none => "unknown".toList

end Lopay.Ip
