import Waymark.Url.Percent
import Waymark.Url.Split
/-!
Hierarchical paths: segments between slashes, a slash in front.

A segment of one dot is left out, one of two dots takes the segment before it away. Where such a
segment is the last one the path ends in a slash.
-/

namespace Waymark.Url.Path

/-- The characters that are escaped in a path. -/
def isEscaped (c : Char) : Bool :=
  " \"#<>?\x60\x7b\x7d".toList.contains c

/-- How many dots a segment consists of, if it consists of dots. A dot may be escaped. -/
def dots? : List Char → Option Nat
  | [] => some 0
  | '.' :: rest => (dots? rest).map (· + 1)
  | '%' :: '2' :: 'e' :: rest => (dots? rest).map (· + 1)
  | '%' :: '2' :: 'E' :: rest => (dots? rest).map (· + 1)
  | _ => none

/-- Whether a segment names a drive: a letter and a colon or a bar. -/
def isDrive : List Char → Bool
  | [letter, mark] => letter.isAlpha && (mark = ':' || mark = '|')
  | _ => false

/-- Take the last of some segments away, the last one first in the list. A drive stays. -/
def up : List (List Char) → List (List Char)
  | [] => []
  | segment :: kept => if isDrive segment then segment :: kept else kept

/-- A segment as it is kept. In a file path a drive in front gets a colon. -/
def kept (isFile : Bool) (before : List (List Char)) (segment : List Char) : List Char :=
  match segment with
  | [letter, mark] =>
      if isFile && before.isEmpty && isDrive [letter, mark] then [letter, ':']
      else Percent.encode isEscaped segment
  | _ => Percent.encode isEscaped segment

/-- Add segments to those before them, the last one first in the list. -/
def resolve (isFile : Bool) : List (List Char) → List (List Char) → List (List Char)
  | before, [] => before
  | before, segment :: rest =>
      let isLast := rest.isEmpty
      match dots? segment with
      | some 1 => resolve isFile (if isLast then [] :: before else before) rest
      | some 2 => resolve isFile (if isLast then [] :: up before else up before) rest
      | _ => resolve isFile (kept isFile before segment :: before) rest

/-- Leave the empty segments in front out, but not the last segment. -/
def trimFront : List (List Char) → List (List Char)
  | [] :: segment :: rest => trimFront (segment :: rest)
  | segments => segments

/-- The path that is written after its first slash. In a known scheme a backslash is a slash. -/
def read (isKnown isFile : Bool) (cs : List Char) : List Char :=
  let segments := split (fun c => c = '/' || (isKnown && c = '\\')) cs
  let resolved := (resolve isFile [] segments).reverse
  let resolved := if isFile then trimFront resolved else resolved
  '/' :: List.intercalate ['/'] resolved

end Waymark.Url.Path
