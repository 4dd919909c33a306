import Cryptox.Library.IpAddress

/-!
# What the loaders meet outside

The URL parser, the resolver and the servers are given, and answer as they like: the resolver and
the servers differently at every step.
-/
namespace Cryptox.Outbound

open Cryptox.Library (Text)

/-- The parts of a parsed URL that the checks read, and its text. -/
structure Url where
  protocol : Text
  username : Text
  password : Text
  hostname : Text
  href : Text
deriving DecidableEq, Repr

/-- The status, and the location header if there is one. -/
structure Response where
  status : Nat
  location : Option Text
deriving DecidableEq, Repr

structure Web where
  /-- `new URL(value)`. -/
  parse : Text → Option Url
  /-- The text of `new URL(location, base)`. -/
  join : Text → Url → Option Text
  /-- The addresses of a host, or the message of the failure. -/
  resolve : Nat → Text → Except String (List Text)
  /-- The answer to a request, unless it fails. -/
  respond : Nat → Url → Option Response

/-- A request, with the step at which its URL was checked. -/
structure Request where
  step : Nat
  url : Url
deriving DecidableEq, Repr

def toLowerCase (text : Text) : Text := text.map Char.toLower

def startsWith (text lead : Text) : Bool := lead.isPrefixOf text

def endsWith (text tail : Text) : Bool := tail.isSuffixOf text

/-- `replace(/^\[|\]$/g, "")`. -/
def stripBrackets (text : Text) : Text :=
  let inner := if text.head? = some '[' then text.tail else text
  if inner.getLast? = some ']' then inner.dropLast else inner

/-- `toLowerCase().replace(/\.$/, "")`. -/
def normalizedHostname (hostname : Text) : Text :=
  let lower := toLowerCase hostname
  if lower.getLast? = some '.' then lower.dropLast else lower

/-- Whether a URL is one of the protocols, without credentials and with a host. -/
def isPlainHttp (url : Url) : Bool :=
  ["http:".toList, "https:".toList].contains url.protocol && url.username.isEmpty
    && url.password.isEmpty && !url.hostname.isEmpty

end Cryptox.Outbound
