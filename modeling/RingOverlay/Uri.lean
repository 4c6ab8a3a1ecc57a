/-!
# `RingOverlay.Uri` — identifiers of resources

A resource is named in full, by a scheme, an authority and a path, or by a path alone, or by an authority
alone. A query and a fragment may follow a path; they are checked and left out.

## Contents
- **Authority.** `isAuthorityChar`, `AuthorityScan`, `authorityFits`.
- **Path.** `isPathChar`, `isQueryChar`, `path?`.
- **Reading.** `Uri`, `splitScheme?`, `Uri.ofText?`.
-/

namespace RingOverlay

/-- What an identifier of a resource names. -/
structure Uri where
  /-- What stands in front of `://`, if anything does. -/
  scheme : Option String := none
  authority : String := ""
  /-- The path, without the query and the fragment that follow it. -/
  path : String := ""
  deriving DecidableEq, Inhabited, Repr

namespace Uri

/-! ## Authority -/

/-- The characters that may stand in an authority as they are. -/
def isAuthorityChar (c : Char) : Bool :=
  c.isAlphanum || "!$&'()*+,-.:;=@[]_~".toList.contains c

/-- The characters that end an authority. -/
def endsAuthority (c : Char) : Bool := c = '/' ∨ c = '?' ∨ c = '#'

/-- What has been seen of an authority so far. -/
structure AuthorityScan where
  colons : Nat := 0
  opened : Bool := false
  closed : Bool := false
  percent : Bool := false
  deriving Inhabited, Repr

/-- Looks at one more character. Colons and percent signs count from the last bracket or `@` on. -/
def AuthorityScan.see (s : AuthorityScan) (c : Char) : Option AuthorityScan :=
  if c = ':' then if 8 ≤ s.colons then none else some { s with colons := s.colons + 1 }
  else if c = '[' then if s.percent || s.opened then none else some { s with opened := true }
  else if c = ']' then
    if !s.opened || s.closed then none
    else some { s with closed := true, colons := 0, percent := false }
  else if c = '@' then some { s with colons := 0, percent := false }
  else if c = '%' then some { s with percent := true }
  else if isAuthorityChar c then some s
  else none

/-- Whether a text may stand as an authority: brackets come in a pair, at most one colon and no percent
    sign stands behind the user part, and something does. -/
def authorityFits (authority : List Char) : Bool :=
  match authority.foldlM AuthorityScan.see {} with
  | none => false
  | some s => s.opened == s.closed && s.colons ≤ 1 && !s.percent && !authority.isEmpty &&
      authority.getLast? != some '@'

/-! ## Path -/

/-- Whether a character may stand in a path. -/
def isPathChar (c : Char) : Bool :=
  let n := c.toNat
  n = 0x21 || (0x24 ≤ n && n ≤ 0x3b) || n = 0x3d || (0x40 ≤ n && n ≤ 0x5f) ||
    (0x61 ≤ n && n ≤ 0x7e) || n = 0x22 || 0x80 ≤ n

/-- Whether a character may stand in a query. -/
def isQueryChar (c : Char) : Bool :=
  let n := c.toNat
  n = 0x21 || (0x24 ≤ n && n ≤ 0x3b) || n = 0x3d || (0x3f ≤ n && n ≠ 0x7f)

/-- A path in front of a query and a fragment of any characters, if the characters of path and query
    may stand there. -/
def path? (cs : List Char) : Option String :=
  let kept := cs.takeWhile (· ≠ '#')
  let path := kept.takeWhile (· ≠ '?')
  if path.all isPathChar && (kept.drop (path.length + 1)).all isQueryChar then
    some (String.ofList path)
  else none

/-! ## Reading -/

/-- The characters of a scheme. -/
def isSchemeChar (c : Char) : Bool := c.isAlphanum || "+-.~".toList.contains c

/-- The number of characters of the longest scheme. -/
def longestScheme : Nat := 64

/-- The number of bytes of the longest identifier. -/
def longest : Nat := 65534

/-- A scheme in front of `://` and what follows, if there is one. -/
def splitScheme? (cs : List Char) : Option (List Char × List Char) :=
  let scheme := cs.takeWhile isSchemeChar
  let rest := cs.drop scheme.length
  if "://".toList.isPrefixOf rest then some (scheme, rest.drop 3) else none

/-- Reads an identifier that does not start with a slash. Behind a scheme stands an authority and a path,
    which may be empty; without a scheme an authority stands alone. -/
def ofAuthority? (cs : List Char) : Option Uri :=
  let (scheme, rest) := match splitScheme? cs with
    | some (scheme, rest) => (some scheme, rest)
    | none => (none, cs)
  let authority := rest.takeWhile (!endsAuthority ·)
  let rest := rest.drop authority.length
  if !authorityFits authority then none
  else
    match scheme with
    | none => if rest.isEmpty then some { authority := String.ofList authority } else none
    | some scheme =>
      if longestScheme < scheme.length then none
      else (path? rest).map fun path =>
        { scheme := some (String.ofList scheme), authority := String.ofList authority, path }

/-- Reads an identifier. A star alone is a path. -/
def ofText? (text : String) : Option Uri :=
  if longest < text.utf8ByteSize then none
  else
    match text.toList with
    | [] => none
    | ['*'] => some { path := "*" }
    | '/' :: cs => (path? ('/' :: cs)).map fun path => { path }
    | cs => ofAuthority? cs

end Uri

end RingOverlay
