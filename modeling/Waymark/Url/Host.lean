import Waymark.Url.Domain
import Waymark.Url.Percent
/-!
Hosts: domain names and numeric addresses.

A text in brackets is an address of eight pieces. Any other text is a domain name; one whose last
label is a number is an address of four octets, written with one to four numbers.
-/

namespace Waymark.Url

/-- Why a text is not a URL. -/
inductive Error where
  /-- A relative reference where there is nothing that it is relative to. -/
  | relativeWithoutBase
  /-- No host where there has to be one. -/
  | emptyHost
  /-- A port that is not a number of sixteen bits. -/
  | badPort
  /-- A host that ends in a number and is no address. -/
  | badAddress
  /-- A host in brackets that is no address. -/
  | badBracketed
  /-- A domain name with a character that must not be there. -/
  | badDomain
  /-- A host of an unknown scheme with a character that must not be there. -/
  | badHostCharacter
deriving DecidableEq, Repr

/-- The wording of an error. -/
def Error.message : Error → String
  | .relativeWithoutBase => "relative URL without a base"
  | .emptyHost => "empty host"
  | .badPort => "invalid port number"
  | .badAddress => "invalid IPv4 address"
  | .badBracketed => "invalid IPv6 address"
  | .badDomain => "invalid international domain name"
  | .badHostCharacter => "invalid domain character"

/-- A host. -/
inductive Host where
  | domain (name : String)
  /-- An address of thirty-two bits. -/
  | address (bits : Nat)
  /-- An address of eight pieces of sixteen bits. -/
  | pieces (values : List Nat)
deriving DecidableEq, Repr

namespace Host

/-- The number that digits of a base say, if they are such digits. -/
def number? (base : Nat) (cs : List Char) : Option Nat :=
  cs.foldlM (fun total c => do
    let value ← Percent.hexValue? c
    if value < base then some (total * base + value) else none) 0

/-- One number of an address: decimal, octal after a zero, hexadecimal after `0x`. The zero or the
`0x` alone is zero. -/
def addressNumber? : List Char → Option Nat
  | [] => none
  | '0' :: 'x' :: digits => number? 16 digits
  | '0' :: 'X' :: digits => number? 16 digits
  | '0' :: digits => number? 8 digits
  | digits => number? 10 digits

/-- The numbers of an address as text, a full stop at the end left out. -/
def addressParts (cs : List Char) : List (List Char) :=
  let parts := split (· = '.') cs
  if parts.getLast? = some [] then parts.dropLast else parts

/-- Whether the last label of a domain name is a number, so that the name has to be an address. -/
def endsInNumber (cs : List Char) : Bool :=
  match (addressParts cs).getLast? with
  | none => false
  | some last => (last ≠ [] && last.all Char.isDigit) || (addressNumber? last).isSome

/-- Join the numbers of an address: the last one fills what the others, an octet each, leave. -/
def joinAddress? (numbers : List Nat) : Option Nat :=
  match numbers.getLast? with
  | none => none
  | some last =>
      let octets := numbers.dropLast
      let rest := Nat.pow 256 (4 - octets.length)
      if numbers.length ≤ 4 && octets.all (· < 256) && last < rest then
        some (octets.foldl (fun total octet => total * 256 + octet) 0 * rest + last)
      else none

/-- Read an address of four octets. -/
def address? (cs : List Char) : Option Nat := do
  joinAddress? (← (addressParts cs).mapM addressNumber?)

/-- Read an octet in decimal without leading zeros. -/
def octet? (cs : List Char) : Option Nat := do
  let value ← number? 10 cs
  if cs ≠ [] && (cs.head? ≠ some '0' || cs.length = 1) && value < 256 then some value else none

/-- Read four octets with full stops between them, as two pieces. -/
def octetPieces? (cs : List Char) : Option (List Nat) := do
  match ← (split (· = '.') cs).mapM octet? with
  | [a, b, c, d] => some [a * 256 + b, c * 256 + d]
  | _ => none

/-- Read a piece: up to four hexadecimal digits. -/
def piece? (cs : List Char) : Option Nat :=
  if cs ≠ [] && cs.length ≤ 4 then number? 16 cs else none

/-- Read pieces with colons between them. The last one may be four octets if nothing follows. -/
def pieces? (isLast : Bool) (cs : List Char) : Option (List Nat) :=
  if cs = [] then some []
  else
    let parts := split (· = ':') cs
    match parts.getLast? with
    | none => none
    | some last =>
        if isLast && last.contains '.' then do
          return (← parts.dropLast.mapM piece?) ++ (← octetPieces? last)
        else parts.mapM piece?

/-- The parts of a text before and after the first two colons in a row, if there are such. -/
def splitColons? : List Char → Option (List Char × List Char)
  | ':' :: ':' :: rest => some ([], rest)
  | c :: rest => (splitColons? rest).map fun (before, after) => (c :: before, after)
  | [] => none

/-- Read an address of eight pieces. Two colons in a row stand for one or more pieces of zero. -/
def bracketed? (cs : List Char) : Option (List Nat) := do
  match splitColons? cs with
  | none =>
      let values ← pieces? true cs
      if values.length = 8 then some values else none
  | some (before, after) =>
      let front ← pieces? false before
      let back ← pieces? true after
      if front.length + back.length < 8 then
        some (front ++ List.replicate (8 - front.length - back.length) 0 ++ back)
      else none

/-- Read a host in brackets, if a text is one. -/
def inBrackets? (cs : List Char) : Option (Except Error Host) :=
  match cs with
  | '[' :: rest =>
      some <| if rest.getLast? = some ']' then
        match bracketed? rest.dropLast with
        | some values => .ok (.pieces values)
        | none => .error .badBracketed
      else .error .badBracketed
  | _ => none

/-- Read the host of a URL with a known scheme. -/
def parse (cs : List Char) : Except Error Host :=
  match inBrackets? cs with
  | some result => result
  | none =>
      match Domain.toAscii? (Unicode.Utf8.decodeLossy (Percent.decode cs)) with
      | none => .error .badDomain
      | some [] => .error .emptyHost
      | some name =>
          if endsInNumber name then
            match address? name with
            | some bits => .ok (.address bits)
            | none => .error .badAddress
          else .ok (.domain (String.ofList name))

/-- The characters that must not be in the host of a URL with an unknown scheme. -/
def forbidden : List Char :=
  "\x00\t\n\r #/:<>?@[\\]^|".toList

/-- Read the host of a URL with an unknown scheme. -/
def parseOpaque (cs : List Char) : Except Error Host :=
  match inBrackets? cs with
  | some result => result
  | none =>
      if cs.any forbidden.contains then .error .badHostCharacter
      else .ok (.domain (String.ofList (Percent.encode (fun _ => false) cs)))

end Host

end Waymark.Url
