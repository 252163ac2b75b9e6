import Mathlib.Data.Nat.Digits.Defs
import Lopay.Ip.Client

/-!
# Spellings of an IP address

The texts that are IP addresses, as a grammar, and what each denotes: the client the limiter ought
to count, an IPv4 address or the /64 of an IPv6 one.
-/

namespace Lopay.Ip

/-! ### Numerals -/

def hexValue (c : Char) : Nat :=
  if c.isDigit then c.toNat - '0'.toNat else c.toLower.toNat - 'a'.toNat + 10

def hexDigits : List Char :=
  ['0', '1', '2', '3', '4', '5', '6', '7', '8', '9', 'a', 'b', 'c', 'd', 'e', 'f',
    'A', 'B', 'C', 'D', 'E', 'F']

/-- Decided by going through the list, not through all characters. -/
instance (priority := high) decidableText {P : Char → Prop} [DecidablePred P]
    (text : List Char) : Decidable (∀ c ∈ text, P c) :=
  List.decidableBAll P text

/-- The shortest hexadecimal numeral of a number, in lower case. -/
def shortest (value : Nat) : List Char :=
  if value = 0 then ['0'] else ((Nat.digits 16 value).map Nat.digitChar).reverse

/-! ### IPv4 -/

/-- A dotted quad. -/
structure Quad where
  a : Fin 256
  b : Fin 256
  c : Fin 256
  d : Fin 256
deriving DecidableEq, Repr

def octetText (octet : Fin 256) : List Char := Nat.toDigits 10 octet.val

def Quad.text (quad : Quad) : List Char :=
  ['.'].intercalate
    [octetText quad.a, octetText quad.b, octetText quad.c, octetText quad.d]

/-! ### IPv6 -/

/-- One to four hexadecimal digits. -/
structure Group where
  text : List Char
  pos : text ≠ []
  short : text.length ≤ 4
  hex : ∀ c ∈ text, c ∈ hexDigits
deriving DecidableEq, Repr

def Group.value (group : Group) : Nat :=
  Nat.ofDigits 16 (group.text.reverse.map hexValue)

def Group.lower (group : Group) : List Char :=
  group.text.map Char.toLower

/-- The characters of a zone index: letters, digits, `-`, `.` and `:`. -/
def isZoneChar (c : Char) : Bool :=
  let code := c.toNat
  (0x30 ≤ code && code ≤ 0x3a) || (0x41 ≤ code && code ≤ 0x5a) || (0x61 ≤ code && code ≤ 0x7a)
    || code = 0x2d || code = 0x2e

/-- An IPv6 address as it is written: groups, after `::` more groups, at the end perhaps a dotted
    quad for the last two, and a zone. Eight groups in all, and `::` stands for at least one. -/
structure Ipv6 where
  head : List Group
  tail : Option (List Group)
  quad : Option Quad
  zone : Option (List Char)
  full : head.length + (tail.getD []).length + (if quad.isSome then 2 else 0)
    + (if tail.isSome then 1 else 0) ≤ 8
  filled : tail = none → head.length + (if quad.isSome then 2 else 0) = 8
  zoned : ∀ text ∈ zone, text ≠ [] ∧ ∀ c ∈ text, isZoneChar c
deriving DecidableEq, Repr

namespace Ipv6

variable (address : Ipv6)

/-- The pieces after the last group of the head, as the text has them. -/
def tailPieces : List (List Char) :=
  ((address.tail.getD []).map (·.text)) ++ (address.quad.map Quad.text).toList

/-- The text without its zone. -/
def bare : List Char :=
  match address.tail with
  | none => [':'].intercalate (address.head.map (·.text) ++ address.tailPieces)
  | some _ =>
      [':'].intercalate (address.head.map (·.text))
        ++ ':' :: ':' :: [':'].intercalate address.tailPieces

def text : List Char :=
  match address.zone with
  | none => address.bare
  | some zone => address.bare ++ '%' :: zone

/-- The two groups a dotted quad stands for. -/
def quadGroups : List Nat :=
  match address.quad with
  | none => []
  | some quad => [quad.a.val * 256 + quad.b.val, quad.c.val * 256 + quad.d.val]

/-- The eight groups by value. -/
def values : List Nat :=
  let front := address.head.map Group.value
  let back := (address.tail.getD []).map Group.value ++ address.quadGroups
  front ++ List.replicate (8 - front.length - back.length) 0 ++ back

end Ipv6

/-! ### What is denoted -/

inductive Spelling where
  | ipv4 (quad : Quad)
  | ipv6 (address : Ipv6)
deriving DecidableEq, Repr

def Spelling.text : Spelling → List Char
  | .ipv4 quad => quad.text
  | .ipv6 address => address.text

/-- An IPv4 address, or a /64. -/
inductive Client where
  | ipv4 (quad : Quad)
  | ipv6 (subnet : List Nat)
deriving DecidableEq, Repr

/-- The high and the low byte of each of two groups. -/
def quadOf (high low : Nat) : Quad where
  a := Fin.ofNat 256 (high / 256)
  b := Fin.ofNat 256 high
  c := Fin.ofNat 256 (low / 256)
  d := Fin.ofNat 256 low

/-- An IPv4-mapped address denotes its IPv4 address, any other the /64 it is in. -/
def Ipv6.client (address : Ipv6) : Client :=
  if address.values.take 6 = [0, 0, 0, 0, 0, 0xffff] then
    .ipv4 (quadOf (address.values.getD 6 0) (address.values.getD 7 0))
  else .ipv6 (address.values.take 4)

def Spelling.client : Spelling → Client
  | .ipv4 quad => .ipv4 quad
  | .ipv6 address => address.client

/-! ### The plain spellings -/

/-- The pieces of the text, with `::` filled up to eight of them: a dotted quad counts as one. -/
def Ipv6.pieces (address : Ipv6) : List (List Char) :=
  let front := address.head.map (·.text)
  front ++ List.replicate (8 - front.length - address.tailPieces.length) ['0']
    ++ address.tailPieces

/-- An IPv4-mapped address is written `::ffff:` and a dotted quad, without a zone. Any other is
    such that, piece by piece, its first four groups are there and in shortest form. -/
def Ipv6.Plain (address : Ipv6) : Prop :=
  if address.values.take 6 = [0, 0, 0, 0, 0, 0xffff] then
    address.head = [] ∧ (∃ group, address.tail = some [group]) ∧ address.quad.isSome
      ∧ address.zone = none
  else
    (address.quad.isSome → address.tail.isSome)
      ∧ (address.pieces.take 4).map (·.map Char.toLower) = (address.values.take 4).map shortest

def Spelling.Plain : Spelling → Prop
  | .ipv4 _ => True
  | .ipv6 address => address.Plain

end Lopay.Ip
