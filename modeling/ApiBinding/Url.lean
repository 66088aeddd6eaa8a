import ApiBinding.Failure
import ApiBinding.Text.Case
import ApiBinding.Url.Host

/-!
URLs: their scheme and their path, as far as a source is told apart by them.
-/

namespace ApiBinding

structure Url where
  scheme : String
  path : String
deriving DecidableEq

namespace Url

def isSchemeChar (c : Char) : Bool := c.isAlphanum || c == '+' || c == '-' || c == '.'

/-- The scheme at the front, in small letters, and what follows its colon. -/
def splitScheme (cs : List Char) : List Char × List Char :=
  match Text.splitFirst? ':' cs with
  | some (scheme, rest) =>
    if (scheme.head?.map Char.isAlpha).getD false && scheme.all isSchemeChar then
      (scheme.map Char.toLower, rest)
    else ([], cs)
  | none => ([], cs)

def endsAuthority (c : Char) : Bool := c == '/' || c == '?' || c == '#'

def splitAuthority : List Char → List Char × List Char
  | '/' :: '/' :: rest =>
    (rest.takeWhile fun c => !endsAuthority c, rest.dropWhile fun c => !endsAuthority c)
  | cs => ([], cs)

def parameterSchemes : List String :=
  ["", "ftp", "hdl", "prospero", "http", "imap", "https", "shttp", "rtsp", "rtspu", "sip",
    "sips", "mms", "sftp", "tel"]

/-- The path without parameters, which follow a semicolon after the last slash. -/
def withoutParameters (cs : List Char) : List Char :=
  let last := (cs.reverse.takeWhile (· != '/')).reverse
  if last.contains ';' then
    cs.take (cs.length - last.length) ++ last.takeWhile (· != ';')
  else cs

/-- The characters of a URL without controls and blanks at the front and line ends and tabs. -/
def cleaned (cs : List Char) : List Char :=
  (cs.dropWhile fun c => c.toNat ≤ 32).filter fun c => c != '\t' && c != '\r' && c != '\n'

/-- The URL that a text is read as, unless its host cannot be one. -/
def parse (s : String) : Except Failure Url :=
  let (scheme, rest) := splitScheme (cleaned s.toList)
  let (authority, rest) := splitAuthority rest
  if isAuthority authority then
    let scheme := String.ofList scheme
    let path := (rest.takeWhile (· != '#')).takeWhile (· != '?')
    let path := if parameterSchemes.contains scheme then withoutParameters path else path
    .ok ⟨scheme, String.ofList path⟩
  else .error (.misuse .numeral)

def isWeb (url : Url) : Bool := url.scheme == "http" || url.scheme == "https"

/-- What follows the last point of the path, with the point and in small letters. -/
def extension (url : Url) : String :=
  match Text.splitLast? '.' url.path.toList with
  | some (_, ending) => "." ++ Text.lower (String.ofList ending)
  | none => ""

end Url

end ApiBinding
