import Waymark.Url.Host
import Waymark.Url.Path
/-!
URLs, as far as routes look at them: scheme, host, port, path and query.

A text is read as the URL standard says. Spaces and control characters around it and line breaks
and tabulators in it are left out. A text without a scheme is relative to the root of the local
host, if relative texts are allowed.
-/

namespace Waymark

/-- A URL. The port is absent where it is the one of the scheme, the host where it is empty. -/
structure Url where
  scheme : String
  host : Option Url.Host
  port : Option Nat
  path : String
  query : Option String
deriving DecidableEq, Repr

namespace Url

/-- How the rest of a URL is read, which its scheme decides. -/
inductive SchemeKind where
  /-- A known scheme, whose URLs have a host. -/
  | network
  | file
  /-- An unknown scheme. -/
  | other
deriving DecidableEq, Repr

/-- The port of a scheme whose URLs have a host. -/
def defaultPort? (scheme : String) : Option Nat :=
  match scheme with
  | "http" => some 80
  | "https" => some 443
  | "ws" => some 80
  | "wss" => some 443
  | "ftp" => some 21
  | _ => none

/-- The kind of a scheme. -/
def kindOf (scheme : String) : SchemeKind :=
  if scheme = "file" then .file
  else if (defaultPort? scheme).isSome then .network
  else .other

/-- Whether the standard knows a scheme. -/
def SchemeKind.isKnown : SchemeKind → Bool
  | .other => false
  | _ => true

/-- Whether a character separates segments. -/
def SchemeKind.isSlash (kind : SchemeKind) (c : Char) : Bool :=
  c = '/' || (kind.isKnown && c = '\\')

/-- Whether a character ends what precedes the path. -/
def SchemeKind.endsAuthority (kind : SchemeKind) (c : Char) : Bool :=
  kind.isSlash c || c = '?' || c = '#'

/-- A text without the characters that do not count. -/
def clean (cs : List Char) : List Char :=
  let isEdge (c : Char) : Bool := c.toNat ≤ 0x20
  let trimmed := ((cs.dropWhile isEdge).reverse.dropWhile isEdge).reverse
  trimmed.filter fun c => !(c = '\t' || c = '\n' || c = '\r')

/-- The scheme in front of a text, in lower case, and what follows its colon, if it has one. -/
def scheme? (cs : List Char) : Option (String × List Char) :=
  let isPart (c : Char) : Bool := c.isAlphanum || c = '+' || c = '-' || c = '.'
  match cs.head?, cs.dropWhile isPart with
  | some first, ':' :: rest =>
      if first.isAlpha then some (String.ofList ((cs.takeWhile isPart).map Char.toLower), rest)
      else none
  | _, _ => none

/-- Whether a path ends at a character. -/
def endsPath (c : Char) : Bool :=
  c = '?' || c = '#'

/-- The query that follows a path, if any. -/
def readQuery? (kind : SchemeKind) (cs : List Char) : Option String :=
  match cs.dropWhile fun c => !endsPath c with
  | '?' :: rest =>
      let isEscaped (c : Char) : Bool := " \"#<>".toList.contains c || (kind.isKnown && c = '\'')
      some (String.ofList (Percent.encode isEscaped (rest.takeWhile (· ≠ '#'))))
  | _ => none

/-- The path in front of a text that starts after the first slash. -/
def readPath (kind : SchemeKind) (cs : List Char) : String :=
  String.ofList (Path.read kind.isKnown (kind = .file) (cs.takeWhile fun c => !endsPath c))

/-- A text without a separator of segments in front. -/
def dropSlash (kind : SchemeKind) (cs : List Char) : List Char :=
  match cs with
  | c :: rest => if kind.isSlash c then rest else c :: rest
  | [] => []

/-- A URL, given what precedes its path and the text from its path on. -/
def withPath (scheme : String) (kind : SchemeKind) (host : Option Host) (port : Option Nat)
    (cs : List Char) : Url :=
  ⟨scheme, host, port, readPath kind (dropSlash kind cs), readQuery? kind cs⟩

/-- Split the text of a host and its port at the colon between them, which is outside brackets. -/
def splitPort (inside : Bool) : List Char → List Char × Option (List Char)
  | [] => ([], none)
  | c :: rest =>
      if c = ':' && !inside then ([], some rest)
      else
        let (host, port) := splitPort (c = '[' || (inside && c ≠ ']')) rest
        (c :: host, port)

/-- Read a port: the port, unless it is that of the scheme, and what follows. -/
def port? (scheme : String) (cs : List Char) : Except Error (Option Nat × List Char) :=
  let digits := cs.takeWhile Char.isDigit
  let rest := cs.dropWhile Char.isDigit
  let value := digits.foldl (fun total c => total * 10 + (c.toNat - 0x30)) 0
  if value ≥ 0x10000 || !(rest.isEmpty || rest.head? = some '\\') then .error .badPort
  else if digits.isEmpty || defaultPort? scheme = some value then .ok (none, rest)
  else .ok (some value, rest)

/-- Read a host, which may be empty in an unknown scheme. -/
def host? (kind : SchemeKind) (cs : List Char) : Except Error (Option Host) :=
  match kind, cs with
  | .other, [] => .ok none
  | .other, _ => some <$> Host.parseOpaque cs
  | _, [] => .error .emptyHost
  | _, _ => some <$> Host.parse cs

/-- Read a URL from its authority on, which follows two slashes. A name and a password before the
host are left out, but then the host must not be empty. -/
def withAuthority (scheme : String) (cs : List Char) : Except Error Url := do
  let kind := kindOf scheme
  let authority := cs.takeWhile fun c => !kind.endsAuthority c
  let rest := cs.dropWhile fun c => !kind.endsAuthority c
  let (credentials, address) := (splitLast? '@' authority).getD ([], authority)
  if authority = ['@'] && !rest.isEmpty then throw .emptyHost
  let (hostText, portText) := splitPort false address
  let host ← host? kind hostText
  if host.isNone && portText.isSome then throw .emptyHost
  let (port, after) ← match portText with
    | some text => port? scheme text
    | none => pure (none, [])
  if host.isNone && !(credentials.isEmpty || credentials = [':']) then throw .emptyHost
  let rest := after ++ rest
  if kind = .other && (rest.isEmpty || rest.head?.any endsPath) then
    return ⟨scheme, host, port, "", readQuery? kind rest⟩
  else return withPath scheme kind host port rest

/-- Read a file URL from what follows its scheme. A host of that name is the local one, and what
looks like a drive is no host. -/
def fileUrl (cs : List Char) : Except Error Url :=
  let slashes := cs.takeWhile SchemeKind.file.isSlash
  if slashes.length < 2 then .ok (withPath "file" .file none none cs)
  else do
    let rest := cs.drop 2
    let hostText := rest.takeWhile fun c => !SchemeKind.file.endsAuthority c
    if Path.isDrive hostText then return withPath "file" .file none none rest
    let host ← if hostText.isEmpty then pure none else some <$> Host.parse hostText
    let host := if host = some (.domain "localhost") then none else host
    return withPath "file" .file host none
      (rest.dropWhile fun c => !SchemeKind.file.endsAuthority c)

/-- Read a text that is relative to the root of the local host. -/
def relativeUrl (cs : List Char) : Except Error Url :=
  let slashes := cs.takeWhile SchemeKind.network.isSlash
  if 2 ≤ slashes.length then
    withAuthority "http" (if slashes.take 2 = ['/', '/'] then cs.drop 2 else cs.drop slashes.length)
  else .ok (withPath "http" .network (some (.domain "localhost")) none cs)

/-- Read the rest of a URL of an unknown scheme. Where no slash follows the scheme the path is any
text. -/
def otherUrl (scheme : String) (cs : List Char) : Except Error Url :=
  match cs with
  | '/' :: '/' :: rest => withAuthority scheme rest
  | '/' :: rest => .ok (withPath scheme .other none none ('/' :: rest))
  | _ =>
      let text := cs.takeWhile fun c => !endsPath c
      .ok ⟨scheme, none, none, String.ofList (Percent.encode (fun _ => false) text), readQuery? .other cs⟩

/-- Read a text as a URL, or as relative to the root of the local host if that is allowed. -/
def read (allowRelative : Bool) (text : String) : Except Error Url :=
  let cs := clean text.toList
  match scheme? cs with
  | none => if allowRelative then relativeUrl cs else .error .relativeWithoutBase
  | some (scheme, rest) =>
      match kindOf scheme with
      | .file => fileUrl rest
      | .other => otherUrl scheme rest
      | .network =>
          let slashes := (rest.takeWhile SchemeKind.network.isSlash).length
          if allowRelative && scheme = "http" && slashes < 2 then relativeUrl rest
          else withAuthority scheme (rest.drop slashes)

/-- Read a text that has to have a scheme. -/
def parse (text : String) : Except Error Url :=
  read false text

/-- Read a text that may be relative to the root of the local host. -/
def parseRelative (text : String) : Except Error Url :=
  read true text

end Url

end Waymark
