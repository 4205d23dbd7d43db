import WikiTypeset.Text.Blank
import WikiTypeset.Text.CharClass
import WikiTypeset.Text.LowerCase
import WikiTypeset.Text.Quoted

/-!
# References and their parts

A reference names a resource by a scheme, an authority, a path with parameters, a query and a fragment, any of which
may be missing. Main definitions: `Parts`, `Parts.ofText` and `Parts.toText`.
-/

namespace WikiTypeset.Reference

open Text

/-- The parts of a reference. A missing part is empty. -/
structure Parts where
  scheme : List Char := []
  authority : List Char := []
  path : List Char := []
  parameters : List Char := []
  query : List Char := []
  fragment : List Char := []
  deriving DecidableEq, Repr

/-- Why a text is no reference. -/
inductive ReferenceError
  /-- The authority has a square bracket without its partner. -/
  | unmatchedBracket
  /-- The host in brackets claims to be an address of a future kind, and is none. -/
  | badFutureAddress
  /-- The host in brackets is no address. -/
  | notAnAddress (host : List Char)
  /-- The host in brackets is an address of the old kind, which takes no brackets. -/
  | dottedAddress
  /-- The authority has a character that stands for a delimiter. -/
  | hiddenDelimiter (authority : List Char)
  deriving DecidableEq, Repr

/-- The wording of an error. -/
def ReferenceError.message : ReferenceError → String
  | unmatchedBracket => "Invalid IPv6 URL"
  | badFutureAddress => "IPvFuture address is invalid"
  | notAnAddress host => String.ofList (quoted host) ++ " does not appear to be an IPv4 or IPv6 address"
  | dottedAddress => "An IPv4 address cannot be in brackets"
  | hiddenDelimiter authority =>
    "netloc '" ++ String.ofList authority ++ "' contains invalid characters under NFKC normalization"

/-! ### Schemes -/

/-- The schemes whose references may be relative. -/
def relativeSchemes : List String :=
  ["", "ftp", "http", "gopher", "nntp", "imap", "wais", "file", "https", "shttp", "mms", "prospero", "rtsp", "rtsps",
   "rtspu", "sftp", "svn", "svn+ssh", "ws", "wss"]

/-- The schemes whose references have an authority. -/
def authoritySchemes : List String :=
  ["", "ftp", "http", "gopher", "nntp", "telnet", "imap", "wais", "file", "mms", "https", "shttp", "snews",
   "prospero", "rtsp", "rtsps", "rtspu", "rsync", "svn", "svn+ssh", "sftp", "nfs", "git", "git+ssh", "ws", "wss"]

/-- The schemes whose paths end in parameters. -/
def parameterSchemes : List String :=
  ["", "ftp", "hdl", "prospero", "http", "imap", "https", "shttp", "rtsp", "rtsps", "rtspu", "sip", "sips", "mms",
   "sftp", "tel"]

/-- Whether a scheme is in a list. -/
def isAmong (schemes : List String) (scheme : List Char) : Bool := schemes.contains (String.ofList scheme)

/-- A character of a scheme. -/
def isSchemeChar (c : Char) : Bool := isAsciiAlphanumeric c || c == '+' || c == '-' || c == '.'

/-! ### Hosts in brackets -/

/-- A number from 0 to 255 in at most three digits without a leading zero. -/
def isOctet (s : List Char) : Bool :=
  !s.isEmpty && s.all isAsciiDigit && s.length ≤ 3 && (s.length = 1 || s.head? != some '0') && digitsValue 10 s ≤ 255

/-- An address of four octets. -/
def isDottedAddress (s : List Char) : Bool :=
  let parts := splitWhere (· == '.') s
  parts.length = 4 && parts.all isOctet

/-- One of the eight groups of an address. -/
def isAddressGroup (s : List Char) : Bool := !s.isEmpty && s.length ≤ 4 && s.all isHexDigit

/-- An address of eight groups; a double colon stands for at least one group of zeros. -/
def isGroupedAddress (s : List Char) : Bool :=
  let parts := splitWhere (· == ':') s
  let last := parts.getLast?.getD []
  let dotted := last.contains '.'
  let parts' := if dotted then parts.dropLast ++ [['0'], ['0']] else parts
  if parts.length < 3 || (dotted && !isDottedAddress last) || 9 < parts'.length then false
  else
    let inner := (parts'.drop 1).dropLast
    match inner.findIdx? (·.isEmpty) with
    | none => parts'.length = 8 && parts'.all isAddressGroup
    | some i =>
      let before := parts'.take (i + 1)
      let after := parts'.drop (i + 2)
      -- an empty part at either end belongs to the double colon
      let before := if before = [[]] then [] else before
      let after := if after = [[]] then [] else after
      before.all isAddressGroup && after.all isAddressGroup && before.length + after.length ≤ 7

/-- An address without the zone that may follow it after a percent sign. -/
def isZonedAddress (s : List Char) : Bool :=
  match s.span (· != '%') with
  | (address, []) => isGroupedAddress address
  | (address, _ :: zone) => !zone.isEmpty && !zone.contains '%' && isGroupedAddress address

/-- Checks a host that stands in brackets. -/
def checkHost (host : List Char) : Except ReferenceError Unit :=
  match host with
  | 'v' :: t =>
    let version := t.takeWhile isHexDigit
    match t.drop version.length with
    | '.' :: _ :: _ => if version.isEmpty then .error .badFutureAddress else .ok ()
    | _ => .error .badFutureAddress
  | _ =>
    if isDottedAddress host then .error .dottedAddress
    else if !host.contains '/' && isZonedAddress host then .ok ()
    else .error (.notAnAddress host)

/-- Characters outside ASCII that stand for a slash, question mark, number sign, at sign or colon. -/
def hiddenDelimiters : List Char :=
  ['\u2047', '\u2048', '\u2049', '\u2100', '\u2101', '\u2105', '\u2106', '\u2A74', '\uFE13', '\uFE16', '\uFE55',
   '\uFE56', '\uFE5F', '\uFE6B', '\uFF03', '\uFF0F', '\uFF1A', '\uFF1F', '\uFF20']

/-! ### Taking apart -/

/-- A text split at the first character `c`; nothing follows it if there is none. -/
def cutAt (c : Char) (s : List Char) : List Char × List Char :=
  let first := s.takeWhile (· != c)
  (first, s.drop (first.length + 1))

/-- The scheme at the start of a reference, in small letters, and the text after it. -/
def splitScheme (scheme s : List Char) : List Char × List Char :=
  let name := s.takeWhile (· != ':')
  if name.length < s.length && (name.head?.map isAsciiLetter).getD false && name.all isSchemeChar then
    (name.map asciiLower, s.drop (name.length + 1))
  else (scheme, s)

/-- The authority at the start of a reference after its scheme, and the text after it. -/
def splitAuthority (s : List Char) : Except ReferenceError (List Char × List Char) :=
  match s with
  | '/' :: '/' :: t => do
    let authority := t.takeWhile fun c => c ∉ ['/', '?', '#']
    let opens := authority.contains '['
    if opens != authority.contains ']' then throw .unmatchedBracket
    if opens then checkHost (cutAt ']' (cutAt '[' authority).2).1
    return (authority, t.drop authority.length)
  | _ => .ok ([], s)

/-- The path and the parameters of its last segment. -/
def splitParameters (s : List Char) : List Char × List Char :=
  let last := (s.reverse.takeWhile (· != '/')).reverse
  let earlier := s.take (s.length - last.length)
  let (segment, parameters) := cutAt ';' last
  (earlier ++ segment, parameters)

/-- The parts of a reference; one that names no scheme has the given one. Controls and spaces before it do not count,
nor do tabs and line ends anywhere. -/
def Parts.ofText (scheme s : List Char) : Except ReferenceError Parts := do
  let s := (s.dropWhile (·.toNat ≤ 0x20)).filter fun c => c ∉ ['\t', '\r', '\n']
  let (scheme, s) := splitScheme scheme s
  let (authority, s) ← splitAuthority s
  let (s, fragment) := cutAt '#' s
  let (path, query) := cutAt '?' s
  if authority.any hiddenDelimiters.contains then throw (.hiddenDelimiter authority)
  let (path, parameters) := if isAmong parameterSchemes scheme then splitParameters path else (path, [])
  return { scheme, authority, path, parameters, query, fragment }

/-- A part after its mark; nothing if it is missing. -/
def marked (mark : Char) (s : List Char) : List Char := if s.isEmpty then [] else mark :: s

/-- The text of a reference. -/
def Parts.toText (p : Parts) : List Char :=
  let path := p.path ++ marked ';' p.parameters
  let path :=
    if !p.authority.isEmpty || (!p.scheme.isEmpty && isAmong authoritySchemes p.scheme) ||
        path.take 2 = ['/', '/'] then
      let path := if path.isEmpty || path.head? == some '/' then path else '/' :: path
      '/' :: '/' :: p.authority ++ path
    else path
  let scheme := if p.scheme.isEmpty then [] else p.scheme ++ [':']
  scheme ++ path ++ marked '?' p.query ++ marked '#' p.fragment

end WikiTypeset.Reference
