import Cryptox.Library.Bytes
import Cryptox.Library.Numeral

/-!
# Cursor texts

A cursor is the base64url text of a JSON value, whose numbers are read exactly.
-/
namespace Cryptox.Library

abbrev CursorJson := JsonValue DecimalNumber

def textJson (text : String) : CursorJson := .text text.toList
def integerJson (n : ℤ) : CursorJson := .number (DecimalNumber.ofInt n)

/-- `Buffer.from(text, "utf8").toString("base64url")` -/
def cursorText (json : CursorJson) : String :=
  String.ofList (encodeBase64Url (encodeUtf8 (json.print DecimalNumber.format)))

/-- A property of an object. Of two of one name the later counts. -/
def propertyOf (name : String) : CursorJson → Option CursorJson
  | .object fields => fields.reverse.lookup name.toList
  | _ => none

def textOf : CursorJson → Option String
  | .text text => some (String.ofList text)
  | _ => none

def integerOf : CursorJson → Option ℤ
  | .number number => if number.isInteger then some number.toInt else none
  | _ => none

theorem textOf_textJson (text : String) : textOf (textJson text) = some text :=
  congrArg some String.ofList_toList

theorem integerOf_integerJson (n : ℤ) : integerOf (integerJson n) = some n := by
  rw [integerJson, integerOf, if_pos (DecimalNumber.ofInt_isInteger n),
    DecimalNumber.toInt_ofInt]

theorem parse_cursorText (json : CursorJson) :
    JsonValue.parse DecimalNumber.format (decodeUtf8 (decodeBase64Url (cursorText json).toList)) =
      some json := by
  rw [cursorText, String.toList_ofList, decodeBase64Url_encodeBase64Url, decodeUtf8_encodeUtf8,
    JsonValue.parse_print]

theorem cursorText_ne_empty (json : CursorJson) : cursorText json ≠ "" := by
  intro hempty
  have hparse := parse_cursorText json
  rw [hempty] at hparse
  cases hparse

end Cryptox.Library
