import CertBroker.Net.Address
import CertBroker.Net.HostName
import CertBroker.Net.PercentCode

namespace CertBroker.Net

inductive Host where
  /-- A name, empty only in schemes that allow it. -/
  | name (text : String)
  | address (ip : IpAddress)
deriving DecidableEq

/-- What follows the authority. -/
inductive UrlPath where
  | segments (parts : List String)
  /-- The rest of a URL without authority that does not begin with a slash. -/
  | plain (text : String)
deriving DecidableEq

/-- A URL as browsers read it: blanks at the ends and tabs and line ends anywhere are dropped,
backslashes count as slashes in the schemes of the web, dots in paths are resolved, and what may not
stand in a part is percent-coded. -/
structure Url where
  scheme : String
  username : String := ""
  password : String := ""
  host : Option Host := none
  /-- Unless it is the usual one of the scheme. -/
  port : Option Nat := none
  path : UrlPath := .segments []
  query : Option String := none
  fragment : Option String := none
deriving DecidableEq

namespace Host

def text : Host → String
  | .name text => text
  | .address (.v4 bits) => dotted bits
  | .address (.v6 bits) => "[" ++ compressed (digitsOf 16 8 bits.toNat) ++ "]"

/-- A number of an older address: decimal, or octal after a zero, or hexadecimal after `0x`. -/
def number? (cs : List Char) : Option Nat :=
  let read (base : Nat) (ds : List Char) : Option Nat :=
    (ds.mapM (Text.digitValue? base)).map (·.foldl (fun n d => n * base + d) 0)
  match cs with
  | [] => none
  | '0' :: 'x' :: ds => read 16 ds
  | '0' :: 'X' :: ds => read 16 ds
  | '0' :: d :: ds => read 8 (d :: ds)
  | ds => read 10 ds

/-- Without an empty part at the end. -/
def dropEmptyLast (parts : List (List Char)) : List (List Char) :=
  if parts.getLast? = some [] then parts.dropLast else parts

/-- Whether a name has to be read as an address. -/
def endsInNumber (cs : List Char) : Bool :=
  match (dropEmptyLast (HostName.splitAtEach '.' cs)).getLast? with
  | some last => (!last.isEmpty && last.all Text.isDigit) || (number? last).isSome
  | none => false

/-- The numbers of an address: each but the last one is a byte, the last one all that is left. -/
def joinNumbers : (left : Nat) → List Nat → Option Nat
  | left + 1, [last] => if last < 1 <<< (8 * (left + 1)) then some last else none
  | left + 1, n :: rest =>
    if n < 256 then (joinNumbers left rest).map (n <<< (8 * left) + ·) else none
  | _, _ => none

def v4OfName? (cs : List Char) : Option IpAddress := do
  let numbers ← (dropEmptyLast (HostName.splitAtEach '.' cs)).mapM number?
  return .v4 (BitVec.ofNat 32 (← joinNumbers 4 numbers))

/-- An address of the newer kind in brackets. -/
def bracketed? (cs : List Char) : Option IpAddress := do
  if cs.getLast? = some ']' then
    match v6? (cs.drop 1).dropLast with
    | some (a, []) => return .v6 (BitVec.ofNat 128 a)
    | _ => none
  else none

/-- The host of a scheme of the web. -/
def parse? [HostName.Rules] (cs : List Char) : Option Host :=
  if cs.head? = some '[' then (bracketed? cs).map .address
  else do
    let decoded ← (Utf8.decode (PercentCode.decode (Utf8.encode (String.ofList cs)))).toOption
    let name ← HostName.toAscii? decoded.toList
    if name.isEmpty then none
    else if endsInNumber name then return .address (← v4OfName? name)
    else return .name (String.ofList name)

/-- A character that no host of another scheme holds. -/
def isForbidden (c : Char) : Bool :=
  c == '\x00' || c == '\t' || c == '\n' || c == '\r' || " #/:<>?@[\\]^|".toList.contains c

/-- The host of another scheme. -/
def parseOther? (cs : List Char) : Option Host :=
  if cs.head? = some '[' then (bracketed? cs).map .address
  else if cs.any isForbidden then none
  else some (.name (String.ofList (PercentCode.encode PercentCode.isControl cs)))

end Host

namespace Url

inductive Fault where
  /-- It has no scheme. -/
  | relative
  | host
  | port
deriving DecidableEq, Repr

/-- Dropped wherever it stands. -/
def isDropped (c : Char) : Bool := c == '\t' || c == '\n' || c == '\r'

def isBlank (c : Char) : Bool := c.toNat ≤ 32

/-- The characters of a text that count. -/
def relevant (s : String) : List Char :=
  let cs := s.toList.dropWhile isBlank
  ((cs.reverse.dropWhile isBlank).reverse).filter fun c => !isDropped c

def isLetter (c : Char) : Bool :=
  (97 ≤ c.toNat && c.toNat ≤ 122) || (65 ≤ c.toNat && c.toNat ≤ 90)

def isSchemeChar (c : Char) : Bool :=
  isLetter c || Text.isDigit c || c == '+' || c == '-' || c == '.'

/-- The scheme in small letters, and what follows its colon. -/
def scheme? (cs : List Char) : Option (String × List Char) :=
  if !cs.head?.any isLetter then none
  else
    let name := cs.takeWhile isSchemeChar
    match cs.drop name.length with
    | ':' :: rest => some (String.ofList (name.map Char.toLower), rest)
    | _ => none

/-- The usual port of a scheme that is read like the web's. -/
def usualPort? : String → Option Nat
  | "http" => some 80
  | "https" => some 443
  | "ws" => some 80
  | "wss" => some 443
  | "ftp" => some 21
  | _ => none

/-- Whether backslashes count as slashes. -/
def isSpecial (scheme : String) : Bool := scheme == "file" || (usualPort? scheme).isSome

def isSlash (special : Bool) (c : Char) : Bool := c == '/' || (special && c == '\\')

/-- Whether a character ends the authority. -/
def endsAuthority (special : Bool) (c : Char) : Bool := isSlash special c || c == '?' || c == '#'

/-- A segment with coded dots written as dots. -/
def plainDots : List Char → List Char
  | '%' :: '2' :: e :: rest =>
    if e == 'e' || e == 'E' then '.' :: plainDots rest else '%' :: plainDots ('2' :: e :: rest)
  | c :: rest => c :: plainDots rest
  | [] => []

def isDot (segment : List Char) : Bool := plainDots segment == ['.']

def isDoubleDot (segment : List Char) : Bool := plainDots segment == ['.', '.']

/-- Resolves dots. A last segment of dots leaves an empty one. -/
def resolve (done : List (List Char)) : List (List Char) → List (List Char)
  | [] => done
  | [last] =>
    if isDoubleDot last then done.dropLast ++ [[]]
    else if isDot last then done ++ [[]]
    else done ++ [last]
  | segment :: rest =>
    resolve (if isDoubleDot segment then done.dropLast
      else if isDot segment then done
      else done ++ [segment]) rest

/-- The segments of a path without its first slash. -/
def segments (special : Bool) (cs : List Char) : List String :=
  let slashed := cs.map fun c => if isSlash special c then '/' else c
  (resolve [] ((HostName.splitAtEach '/' slashed).map (PercentCode.encode PercentCode.inPath))).map
    String.ofList

/-- The path after an authority. -/
def pathAfterAuthority (special : Bool) (cs : List Char) : UrlPath :=
  match cs with
  | [] => .segments (if special then [""] else [])
  | c :: rest => .segments (segments special (if isSlash special c then rest else c :: rest))

/-- The last at sign parts the user from the host. -/
def splitUser (cs : List Char) : Option (List Char) × List Char :=
  if cs.contains '@' then
    let host := (cs.reverse.takeWhile (· != '@')).reverse
    (some (cs.take (cs.length - host.length - 1)), host)
  else (none, cs)

/-- The host ends at the first colon outside of brackets. -/
def hostLength (inBrackets : Bool) : List Char → Nat
  | [] => 0
  | c :: rest =>
    if c == ':' && !inBrackets then 0
    else 1 + hostLength (c == '[' || (c != ']' && inBrackets)) rest

/-- A port of at most 65535, and what follows its digits. -/
def port? (cs : List Char) : Option (Option Nat × List Char) :=
  let ds := cs.takeWhile Text.isDigit
  let n := (ds.filterMap (Text.digitValue? 10)).foldl (fun n d => n * 10 + d) 0
  let rest := cs.drop ds.length
  if 65535 < n || !(rest.isEmpty || rest.head? = some '\\') then none
  else some (if ds.isEmpty then none else some n, rest)

/-- User, host and port, and what of the text is left over after them. An empty host, which only
schemes of other kinds than the web's may have, stands alone; `more` says whether the URL goes on
after the authority. -/
def authority [HostName.Rules] (scheme : String) (cs : List Char) (more : Bool) :
    Except Fault (Url × List Char) := do
  let special := isSpecial scheme
  let (user, rest) := splitUser cs
  let hostChars := rest.take (hostLength false rest)
  let after := rest.drop hostChars.length
  let username := (user.getD []).takeWhile (· != ':')
  let password := (user.getD []).drop (username.length + 1)
  let hasUser := !(username.isEmpty && password.isEmpty)
  let lacksHost := special || hasUser || !after.isEmpty || (user == some [] && more)
  if hostChars.isEmpty && lacksHost then throw .host
  let host ← match if special then Host.parse? hostChars else Host.parseOther? hostChars with
    | some host => pure host
    | none => throw .host
  let (port, left) ← match after with
    | ':' :: digits =>
      match port? digits with
      | some found => pure found
      | none => throw .port
    | _ => pure (none, after)
  return ({
    scheme
    username := String.ofList (PercentCode.encode PercentCode.inUserInfo username)
    password := String.ofList (PercentCode.encode PercentCode.inUserInfo password)
    host := some host
    port := if port = usualPort? scheme then none else port }, left)

/-- Adds query and fragment. -/
def withEnd (u : Url) (cs : List Char) : Url :=
  let special := isSpecial u.scheme
  let query := cs.takeWhile (· != '#')
  let fragment := (cs.drop query.length).drop 1
  { u with
    query := if query.isEmpty then none else
      some (String.ofList (PercentCode.encode
        (if special then PercentCode.inSpecialQuery else PercentCode.inQuery) (query.drop 1)))
    fragment := if cs.length = query.length then none else
      some (String.ofList (PercentCode.encode PercentCode.inFragment fragment)) }

/-- What stands before the query, and the rest. -/
def splitEnd (cs : List Char) : List Char × List Char :=
  cs.span fun c => c != '?' && c != '#'

/-- A URL after the slashes that begin its authority. -/
def afterSlashes [HostName.Rules] (scheme : String) (cs : List Char) : Except Fault Url := do
  let special := isSpecial scheme
  let (authorityChars, rest) := cs.span fun c => !endsAuthority special c
  let (u, left) ← authority scheme authorityChars (!rest.isEmpty)
  let (path, rest) := splitEnd rest
  return { u with path := pathAfterAuthority special (left ++ path) }.withEnd rest

def isDrive (cs : List Char) : Bool :=
  match cs with
  | [a, b] => isLetter a && (b == ':' || b == '|')
  | _ => false

def ofFile [HostName.Rules] (cs : List Char) : Except Fault Url := do
  let isSlash := isSlash true
  let (hostChars, rest) := match cs with
    | a :: b :: rest =>
      if isSlash a && isSlash b then rest.span fun c => !endsAuthority true c else ([], cs)
    | _ => ([], cs)
  let (path, ending) := splitEnd rest
  if isDrive hostChars then
    return { scheme := "file", path := pathAfterAuthority true (hostChars ++ path) : Url }.withEnd
      ending
  let host ← if hostChars.isEmpty then pure none else
    match Host.parse? hostChars with
    | some host => pure (if host = .name "localhost" then none else some host)
    | none => throw .host
  return { scheme := "file", host, path := pathAfterAuthority true path : Url }.withEnd ending

/-- A URL without an authority. -/
def withoutAuthority (scheme : String) (cs : List Char) : Url :=
  let (pathChars, ending) := splitEnd cs
  let path := match pathChars with
    | '/' :: rest => UrlPath.segments (segments false rest)
    | _ => .plain (String.ofList (PercentCode.encode PercentCode.isControl pathChars))
  { scheme, path : Url }.withEnd ending

def parse [HostName.Rules] (s : String) : Except Fault Url :=
  match scheme? (relevant s) with
  | none => .error .relative
  | some (scheme, rest) =>
    if scheme = "file" then ofFile rest
    else if isSpecial scheme then afterSlashes scheme (rest.dropWhile (isSlash true))
    else match rest with
      | '/' :: '/' :: rest => afterSlashes scheme rest
      | rest => .ok (withoutAuthority scheme rest)

def pathText (u : Url) : String :=
  match u.path with
  | .segments parts => String.join (parts.map ("/" ++ ·))
  | .plain text => text

/-- Whether there is a host with a name or an address. -/
def hasHost (u : Url) : Bool := u.host.any (· != .name "")

/-- The host with the port, if it is not the usual one. -/
def hostText (u : Url) : String :=
  match u.host with
  | some host => host.text ++ (match u.port with
    | some port => ":" ++ toString port
    | none => "")
  | none => ""

def userText (u : Url) : String :=
  if u.username.isEmpty && u.password.isEmpty then ""
  else if u.password.isEmpty then u.username ++ "@"
  else u.username ++ ":" ++ u.password ++ "@"

def text (u : Url) : String :=
  u.scheme ++ ":"
    ++ (if u.host.isSome || u.scheme == "file" then "//" ++ u.userText ++ u.hostText else "")
    ++ u.pathText
    ++ (match u.query with
      | some query => "?" ++ query
      | none => "")
    ++ (match u.fragment with
      | some fragment => "#" ++ fragment
      | none => "")

end Url

end CertBroker.Net
