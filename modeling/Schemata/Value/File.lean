import Schemata.Text.Blank
import Schemata.Unicode.Casing

/-!
# `Schemata.Value.File` — binary contents

A file value is a sequence of bytes, an open stream, or an upload that reports a media type. Streams and
uploads have an identity, their handle, and a reading position, which is not part of the value.

## Contents
- **Files.** `File`, with the attributes of an upload in `Upload`.
- **Size.** `File.size?` is the size of the whole content, as far as it can be known; `File.measure` finds it
  the way an open stream allows, by moving to the end and back, on the `Positions` of all streams.
- **Media type.** `File.mediaType?`.
-/

namespace Schemata

/-! ## Files -/

/-- The forms of a sequence of bytes. -/
inductive ByteForm
  | fixed
  | growable
  | view
deriving DecidableEq, Repr

/-- A media type that an upload reports: a text, or something that is no text and may count as
nothing. -/
inductive Label
  | text (s : String)
  | other (something : Bool)
deriving DecidableEq, Repr

/-- Whether a reported media type counts as something. -/
def Label.isSomething : Label → Bool
  | .text s => !s.isEmpty
  | .other something => something

/-- What an upload reports: media type under two names, a size, and whether it can be repositioned. -/
structure Upload where
  contentType : Option Label
  mimetype : Option Label
  size : Option Int
  seekable : Bool
deriving DecidableEq, Repr

/-- Binary content. A stream that is closed or leads out of a pipe cannot be repositioned. -/
inductive File
  | bytes (form : ByteForm) (content : List UInt8)
  | stream (handle : Nat) (content : List UInt8) (seekable : Bool)
  | upload (handle : Nat) (content : List UInt8) (reported : Upload)
deriving DecidableEq, Repr

namespace File

/-- An upload that reports no media type under either name is not taken for a file. -/
def isFile : File → Bool
  | .upload _ _ reported => reported.contentType.isSome || reported.mimetype.isSome
  | _ => true

/-- Bytes are the same when their contents are; a stream is the same as itself only. -/
def same : File → File → Bool
  | .bytes _ a, .bytes _ b => a == b
  | .stream h _ _, .stream k _ _ => h == k
  | .upload h _ _, .upload k _ _ => h == k
  | _, _ => false

/-! ## Size -/

/-- The reading positions of all streams, by handle. -/
abbrev Positions := Nat → Nat

/-- The positions after one stream has been moved. -/
def Positions.seek (positions : Positions) (handle position : Nat) : Positions :=
  fun h => if h = handle then position else positions h

/-- Moves a stream to its end, notes the position there, and moves it back. -/
def probe (handle : Nat) (content : List UInt8) (positions : Positions) : Nat × Positions :=
  let before := positions handle
  let atEnd := positions.seek handle content.length
  let size := atEnd handle
  (size, atEnd.seek handle before)

/-- The size of a file, found on open streams by moving to the end and back. -/
def measure : File → Positions → Option Int × Positions
  | .bytes _ content, positions => (some content.length, positions)
  | .stream handle content seekable, positions =>
    if seekable then
      let (size, positions) := probe handle content positions
      (some size, positions)
    else (none, positions)
  | .upload handle content reported, positions =>
    match reported.size with
    | some size => (some size, positions)
    | none =>
      if reported.seekable then
        let (size, positions) := probe handle content positions
        (some size, positions)
      else (none, positions)

/-- The size of a file, if it can be known: what an upload reports, else the length of the content. -/
def size? : File → Option Int
  | .bytes _ content => some content.length
  | .stream _ content seekable => if seekable then some content.length else none
  | .upload _ content reported =>
    match reported.size with
    | some size => some size
    | none => if reported.seekable then some content.length else none

/-! ## Media type -/

/-- A media type without its parameters, in lower case. -/
def bareMediaType (s : String) : String :=
  Unicode.lower (String.ofList (Text.stripChars (s.toList.takeWhile (· != ';'))))

/-- The media type that a file reports; the first name counts unless it holds nothing. -/
def mediaType? : File → Option String
  | .upload _ _ reported =>
    let label :=
      match reported.contentType with
      | some label => if label.isSomething then some label else reported.mimetype
      | none => reported.mimetype
    match label with
    | some (.text s) => some (bareMediaType s)
    | _ => none
  | _ => none

end File

end Schemata
