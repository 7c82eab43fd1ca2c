/-!
# Text helpers

Small operations on texts that the rest of the library states its rules with: whether one
text occurs in another, and replacing every occurrence of a text. They work on the characters
of a text, so their lemmas are lemmas about lists.
-/

namespace ReleaseBuild

namespace Text

/-- Whether `needle` occurs in `hay` as a run of consecutive characters. The empty text occurs
everywhere. -/
def occursIn (needle : List Char) : List Char → Bool
  | [] => needle.isEmpty
  | c :: cs => needle.isPrefixOf (c :: cs) || occursIn needle cs

/-- Whether the text `needle` occurs in the text `hay`. -/
def contains (hay needle : String) : Bool := occursIn needle.toList hay.toList

/-- Replace every occurrence of a non-empty `old`, scanning left to right. The fuel is the
length of the text, which every step shortens. -/
def replaceChars (old new : List Char) : Nat → List Char → List Char
  | 0, cs => cs
  | _ + 1, [] => []
  | fuel + 1, c :: cs =>
    if !old.isEmpty && old.isPrefixOf (c :: cs) then
      new ++ replaceChars old new fuel ((c :: cs).drop old.length)
    else c :: replaceChars old new fuel cs

/-- Replace every occurrence of `old` in the text by `new`; an empty `old` changes nothing. -/
def replace (text old new : String) : String :=
  String.ofList (replaceChars old.toList new.toList text.length text.toList)

/-- The text without its first `n` characters. -/
def dropChars (text : String) (n : Nat) : String := String.ofList (text.toList.drop n)

/-- The first `n` characters of the text. -/
def takeChars (text : String) (n : Nat) : String := String.ofList (text.toList.take n)

/-- The text with the prefix removed, when it starts with it. -/
def stripPrefix? (text pre : String) : Option String :=
  if pre.toList.isPrefixOf text.toList then some (dropChars text pre.length) else none

/-- Pad on the left with spaces to the given width. -/
def padLeft (text : String) (width : Nat) : String :=
  String.ofList (List.replicate (width - text.length) ' ') ++ text

/-- Pad on the left with zeros to the given width. -/
def zeroPad (text : String) (width : Nat) : String :=
  String.ofList (List.replicate (width - text.length) '0') ++ text

end Text

end ReleaseBuild
