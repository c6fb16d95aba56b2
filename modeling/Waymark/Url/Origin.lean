import Waymark.Url.Basic
/-!
Origins of URLs. The origin of a URL whose path is another URL is that of the other.
-/

namespace Waymark.Url

/-- Where a document comes from: scheme, host and port. -/
structure Origin where
  scheme : String
  host : Host
  port : Nat
deriving DecidableEq, Repr

/-- The origin of a URL, looking no deeper than so many URLs within URLs. An opaque origin, which
equals none, is `none`. -/
def originWithin : Nat → Url → Option Origin
  | depth, url =>
      match defaultPort? url.scheme, url.host, depth with
      | some standard, some host, _ => some ⟨url.scheme, host, url.port.getD standard⟩
      | _, _, depth + 1 =>
          if url.scheme = "blob" then
            match parse url.path with
            | .ok inner => originWithin depth inner
            | .error _ => none
          else none
      | _, _, 0 => none

/-- The origin of a URL, or nothing if it is opaque. -/
def origin? (url : Url) : Option Origin :=
  originWithin url.path.length url

/-- What a route asks of origins. -/
inductive OriginRule where
  | any
  /-- The origin, unless it is opaque: no URL has an opaque origin of another. -/
  | only (origin : Option Origin)
deriving DecidableEq, Repr

/-- Whether a URL has an origin as asked for. -/
def OriginRule.accepts (rule : OriginRule) (url : Url) : Bool :=
  match rule with
  | .any => true
  | .only expected => expected.isSome && expected = url.origin?

end Waymark.Url
