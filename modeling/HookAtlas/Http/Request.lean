/-
# Requests

A request is a method, a path and query parameters.  Path and parameters are percent-encoded UTF-8,
and a plus sign in a parameter is a space.  Of a parameter that occurs several times the last value
counts.  In a path `.` and `..` are resolved before it is decoded.  An address holds no ASCII control
characters.
-/

import HookAtlas.Text.Quoted
import HookAtlas.Text.Utf8

namespace HookAtlas

structure HttpRequest where
  method : Text
  path : Text
  query : List (Text × Text)
deriving DecidableEq, Repr

namespace HttpRequest

/-- The bytes of percent-encoded text.  A percent sign without two digits stands for itself. -/
def percentBytes : Text → List Nat
  | [] => []
  | c :: cs =>
    if c = '%' then
      match cs with
      | high :: low :: rest =>
        match high.hexValue?, low.hexValue? with
        | some high, some low => (high * 16 + low) :: percentBytes rest
        | _, _ => Utf8.encodeCodePoint c ++ percentBytes (high :: low :: rest)
      | rest => Utf8.encodeCodePoint c ++ percentBytes rest
    else Utf8.encodeCodePoint c ++ percentBytes cs

/-- Decode percent-encoded text. -/
def percentDecode (t : Text) : Text :=
  Utf8.decode (percentBytes t)

def decodeComponent (t : Text) : Text :=
  percentDecode (t.map fun c : CodePoint => if c = '+' then (' ' : CodePoint) else c)

/-- Cut a text at the first occurrence of a mark.  Answers what comes before it and, if it occurs,
what comes after it. -/
def cutAt (separator : Char) (t : Text) : Text × Option Text :=
  let before := t.takeWhile fun c : CodePoint => c ≠ separator
  match t.drop before.length with
  | [] => (before, none)
  | _ :: after => (before, some after)

/-- Read query parameters. -/
def parseQuery (t : Text) : List (Text × Text) :=
  ((t.split '&').filter (· ≠ [])).map fun part =>
    let (name, value) := cutAt '=' part
    (decodeComponent name, decodeComponent (value.getD []))

/-- Go down one part of a path, or up where the part says so.  The parts so far are given innermost
first; the last of them is what comes before the first slash, and stays. -/
def descend (above : List Text) (part : Text) : List Text :=
  if part = Text.mark '.' then above
  else if part = Text.ofChars ['.', '.'] then
    match above with
    | _ :: next :: more => next :: more
    | top => top
  else part :: above

/-- A path without the host that two slashes before it announce. -/
def withoutHost (path : Text) : Text :=
  if (Text.ofChars ['/', '/']).isPrefixOf path then
    (path.drop 2).dropWhile fun c : CodePoint => c ≠ '/'
  else path

/-- A path with one slash at its start and without `.` and `..` among its parts. -/
def normalPath (path : Text) : Text :=
  let parts := Text.split '/' (path.dropWhile fun c : CodePoint => c = '/')
  Text.join (Text.mark '/') (parts.foldl descend [[]]).reverse

/-- A control character in an address, and how many characters come before it. -/
structure AddressError where
  codePoint : CodePoint
  position : Nat
deriving DecidableEq, Repr

def AddressError.message (error : AddressError) : Text :=
  Text.ofString "Invalid non-printable ASCII character in URL, " ++ Text.quoted [error.codePoint] ++
    Text.ofString " at position " ++ Number.natText error.position ++ Text.mark '.'

/-- The first control character of an address. -/
def addressError? (address : Text) : Option AddressError :=
  (address.zipIdx.find? fun entry => entry.1.isAsciiControl).map fun entry => ⟨entry.1, entry.2⟩

/-- The request of a method, in any case, and an address. -/
def ofAddress (method address : Text) : Except AddressError HttpRequest :=
  match addressError? address with
  | some error => .error error
  | none =>
    let (target, _) := cutAt '#' address
    let (path, query) := cutAt '?' target
    .ok ⟨method.map CodePoint.asciiUpper, percentDecode (normalPath (withoutHost path)),
      parseQuery (query.getD [])⟩

def parameter? (request : HttpRequest) (name : String) : Option Text :=
  (request.query.reverse.find? fun entry => entry.1 = Text.ofString name).map Prod.snd

end HttpRequest

end HookAtlas
