import Mathlib.Data.List.DropRight
import Cryptox.Backtesting.Simulator
import Cryptox.Library.Bytes
import Cryptox.Library.Scanning
import Cryptox.Outbound.Web

/-!
# The sanitizer of crawled pages

Elements that are blocked and comments are cut out, then every tag is written anew or dropped, and
everything between the tags is copied through.
-/
namespace Cryptox.Outbound.Sanitizer

open Cryptox.Backtesting (isJsSpace)
open Cryptox.Library

def allowedTags : List Text :=
  ["a", "article", "blockquote", "body", "br", "div", "em", "footer", "h1", "h2", "h3", "h4", "h5",
    "h6", "head", "header", "html", "li", "link", "main", "meta", "ol", "p", "section", "span",
    "strong", "time", "title", "ul"].map String.toList

def voidTags : List Text := ["br", "link", "meta"].map String.toList

def blockedNames : List Text :=
  ["script", "style", "noscript", "iframe", "object", "embed", "svg", "canvas", "template",
    "form"].map String.toList

def safeNames : List Text :=
  ["href", "datetime", "content", "name", "property", "rel", "lang"].map String.toList

/-- `\w` -/
def isWord (c : Char) : Bool := c.isAlphanum || c == '_'

/-- `[\w-]` -/
def isNameChar (c : Char) : Bool := isWord c || c == '-'

section Patterns

/-- `[^>]*>` -/
def throughClose : Matcher Char
  | [] => none
  | c :: rest =>
    if c = '>' then some (['>'], rest)
    else (throughClose rest).map fun found => (c :: found.1, found.2)

/-- `<\/?[A-Za-z][^>]*>` -/
def tagAt : Matcher Char
  | '<' :: '/' :: c :: rest =>
    if c.isAlpha then (throughClose rest).map fun found => ('<' :: '/' :: c :: found.1, found.2)
    else none
  | '<' :: c :: rest =>
    if c.isAlpha then (throughClose rest).map fun found => ('<' :: c :: found.1, found.2) else none
  | _ => none

/-- What follows a name, in whatever case it is written. -/
def afterName : Text → Text → Option Text
  | [], text => some text
  | _ :: _, [] => none
  | letter :: name, c :: text => if c.toLower = letter then afterName name text else none

/-- What follows `<\/\s*name\s*>`. -/
def afterClosing (name : Text) : Text → Option Text
  | '<' :: '/' :: rest =>
    match afterName name (rest.dropWhile isJsSpace) with
    | none => none
    | some rest =>
      match rest.dropWhile isJsSpace with
      | '>' :: after => some after
      | _ => none
  | _ => none

/-- What follows the first closing tag of a name, or the end of the text. -/
def afterBody (name : Text) : Text → Text
  | [] => []
  | c :: rest =>
    match afterClosing name (c :: rest) with
    | some after => after
    | none => afterBody name rest

/-- What follows `name\b[^>]*>` and the body. -/
def afterElement (text name : Text) : Option Text :=
  match afterName name text with
  | none => none
  | some rest =>
    if rest.head?.any isWord then none
    else (throughClose rest).map fun found => afterBody name found.2

/-- What a match leaves of a text is its end. -/
def matching (text : Text) (after : Option Text) : Option (Text × Text) :=
  after.map fun after => (text.take (text.length - after.length), after)

/-- `<(script|…)\b[^>]*>[\s\S]*?(?:<\/\s*\1\s*>|$)` -/
def blockedAt : Matcher Char
  | '<' :: rest => matching ('<' :: rest) (blockedNames.findSome? (afterElement rest))
  | _ => none

/-- What follows the first `-->`. -/
def afterArrow : Text → Option Text
  | [] => none
  | c :: rest =>
    if "-->".toList.isPrefixOf (c :: rest) then some (rest.drop 2) else afterArrow rest

/-- `<!--[\s\S]*?-->` -/
def commentAt : Matcher Char
  | '<' :: '!' :: '-' :: '-' :: rest => matching ('<' :: '!' :: '-' :: '-' :: rest) (afterArrow rest)
  | _ => none

end Patterns

section Attributes

/-- `[^\s=/>]` -/
def isAttributeChar (c : Char) : Bool := !(isJsSpace c || c == '=' || c == '/' || c == '>')

def quotationMark : Char := Char.ofNat 34

def apostrophe : Char := Char.ofNat 39

def graveAccent : Char := Char.ofNat 96

def isBareChar (c : Char) : Bool :=
  !(isJsSpace c || [quotationMark, apostrophe, '=', '<', '>', graveAccent].contains c)

/-- A value up to the quotation mark it began with. -/
def quoted (mark : Char) (rest : Text) : Option (Text × Text) :=
  if rest.contains mark then
    some (rest.takeWhile (· != mark), (rest.dropWhile (· != mark)).drop 1)
  else none

def valueAt : Text → Option (Text × Text)
  | [] => none
  | c :: rest =>
    if c = quotationMark then quoted quotationMark rest
    else if c = apostrophe then quoted apostrophe rest
    else if isBareChar c then
      some ((c :: rest).takeWhile isBareChar, (c :: rest).dropWhile isBareChar)
    else none

/-- The value behind `\s*=\s*`, if there is one, and what follows. -/
def assigned (text : Text) : Option Text × Text :=
  match text.dropWhile isJsSpace with
  | '=' :: rest =>
    match valueAt (rest.dropWhile isJsSpace) with
    | some (value, after) => (some value, after)
    | none => (none, text)
  | _ => (none, text)

/-- The attributes that are found in a text, within so many steps. -/
def attributesWithin : Nat → Text → List (Text × Option Text)
  | _, [] => []
  | 0, _ :: _ => []
  | bound + 1, c :: rest =>
    if isAttributeChar c then
      let found := assigned (rest.dropWhile isAttributeChar)
      (c :: rest.takeWhile isAttributeChar, found.1) :: attributesWithin bound found.2
    else attributesWithin bound rest

def attributesOf (text : Text) : List (Text × Option Text) := attributesWithin text.length text

end Attributes

section Tags

/-- Whether a tag closes, its name as it is written, and what follows the name. -/
def splitName (closing : Bool) : Text → Option (Bool × Text × Text)
  | [] => none
  | c :: rest =>
    if c.isAlpha then
      some (closing, c :: rest.takeWhile isNameChar, rest.dropWhile isNameChar)
    else none

/-- `^<\/?\s*([A-Za-z][\w-]*)` -/
def splitTag : Text → Option (Bool × Text × Text)
  | '<' :: '/' :: rest => splitName true (rest.dropWhile isJsSpace)
  | '<' :: rest => splitName false (rest.dropWhile isJsSpace)
  | _ => none

/-- `replace(/\/\s*$/, "")` -/
def withoutSlash (text : Text) : Text :=
  if (text.rdropWhile isJsSpace).getLast? = some '/' then (text.rdropWhile isJsSpace).dropLast
  else text

/-- `/\/\s*>$/` of a tag whose name is followed by `rest`. -/
def closesItself (rest : Text) : Bool :=
  (rest.dropLast.rdropWhile isJsSpace).getLast? == some '/'

def tagName (token : Text) : Text :=
  match splitTag token with
  | none => []
  | some (_, name, _) => toLowerCase name

/-- The attributes of a tag. -/
def tagAttributes (token : Text) : List (Text × Option Text) :=
  match splitTag token with
  | none => []
  | some (_, _, rest) => attributesOf (withoutSlash rest.dropLast)

def escapeCharacter (c : Char) : Text :=
  if c = '&' then "&amp;".toList
  else if c = quotationMark then "&quot;".toList
  else if c = '<' then "&lt;".toList
  else if c = '>' then "&gt;".toList
  else [c]

def escapeAttribute (value : Text) : Text := value.flatMap escapeCharacter

/-- `slice(0, units)`. A character that would be cut in half is left out. -/
def sliceUnits : Nat → Text → Text
  | _, [] => []
  | units, c :: rest =>
    let width := if c.toNat < 0x10000 then 1 else 2
    if width ≤ units then c :: sliceUnits (units - width) rest else []

def trimText (text : Text) : Text := (text.dropWhile isJsSpace).rdropWhile isJsSpace

/-- `name="value"` -/
def writtenAttribute (name value : Text) : Text :=
  name ++ '=' :: quotationMark :: value ++ [quotationMark]

variable (resolve : Text → Url → Option Url)

def safeAttribute (baseUrl : Url) (name value : Text) : Option Text :=
  let normalizedName := toLowerCase name
  let trimmed := sliceUnits 2000 (trimText value)
  if !safeNames.contains normalizedName || trimmed.isEmpty then none
  else if normalizedName = "href".toList then
    match resolve trimmed baseUrl with
    | none => none
    | some href =>
      if !(["http:".toList, "https:".toList].contains href.protocol) || !href.username.isEmpty
          || !href.password.isEmpty then none
      else some (writtenAttribute "href".toList (escapeAttribute href.href))
  else some (writtenAttribute normalizedName (escapeAttribute trimmed))

/-- The attributes that are kept, each behind a blank. -/
def keptAttributes (baseUrl : Url) (attributes : List (Text × Option Text)) : Text :=
  attributes.flatMap fun entry =>
    match entry.2.bind (safeAttribute resolve baseUrl entry.1) with
    | none => []
    | some written => ' ' :: written

def sanitizeTag (baseUrl : Url) (token : Text) : Text :=
  match splitTag token with
  | none => []
  | some (closing, name, rest) =>
    let tagName := toLowerCase name
    if !allowedTags.contains tagName then []
    else if closing then "</".toList ++ tagName ++ ">".toList
    else
      "<".toList ++ tagName
        ++ keptAttributes resolve baseUrl (attributesOf (withoutSlash rest.dropLast))
        ++ (if voidTags.contains tagName || closesItself rest then " /".toList else [])
        ++ ">".toList

end Tags

/-- The text without blocked elements and comments. -/
def withoutUnsafeBlocks (rawHtml : Text) : Text := removeAll commentAt (removeAll blockedAt rawHtml)

/-- The copied text, and the tags as they are written anew. -/
def sanitizePieces (resolve : Text → Url → Option Url) (baseUrl : Url) (html : Text) : Text :=
  (scan tagAt html).flatMap fun piece =>
    match piece with
    | .item c => [c]
    | .found token => sanitizeTag resolve baseUrl token

def parseHttpUrl (parse : Text → Option Url) (value : Text) : Option Url :=
  (parse value).filter isPlainHttp

/-- Every failure is the same: the stage FETCH, the reason ERROR. -/
def preprocessCrawlerHtml (parse : Text → Option Url) (resolve : Text → Url → Option Url)
    (rawHtml sourceUrl : Text) (maxBytes : Nat) : Option Text :=
  if maxBytes < (encodeUtf8 rawHtml).length then none
  else
    (parseHttpUrl parse sourceUrl).map fun baseUrl =>
      sanitizePieces resolve baseUrl (withoutUnsafeBlocks rawHtml)

end Cryptox.Outbound.Sanitizer
