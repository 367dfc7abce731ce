import Pertisk.Lib.Bytes
import Pertisk.Lib.Utf8
import Pertisk.SerialLog.Addrs

namespace Pertisk.SerialLog
open Lib PeerUrl Net Text
open Volume (trimMatches)

/-! Nothing stands for an access out of range, or for a loop that is not done within its steps. -/

def toAsciiLowercase (line : List Char) : List Char := line.map Char.toLower

def has (line text : List Char) : Bool := decide (text <:+: line)

/-- The byte where a text begins for the first time. -/
def find (text : List Char) : List Char → Option ℕ
  | [] => if text = [] then some 0 else none
  | c :: s => if text <+: c :: s then some 0 else (find text s).map (c.utf8Size + ·)

def serialLineHasMac (line : List Char) (mac : String) : Bool :=
  match normalizeMac mac with
  | none => false
  | some want =>
    let lower := toAsciiLowercase line
    has lower want.toList || has lower (want.toList.map (fun c => if c = ':' then '-' else c))

def isHexByte (b : UInt8) : Bool := isHexdigit (byteChar b)

/-- The parts of an address from `start` on. -/
def macParts (bytes : List UInt8) (start : ℕ) : List ℕ → Option Bool
  | [] => some true
  | part :: parts => do
    let offset := start + part * 3
    let high ← bytes[offset]?
    if !isHexByte high then return false
    let low ← bytes[offset + 1]?
    if !isHexByte low then return false
    if part < 5 then
      let mark ← bytes[offset + 2]?
      if byteChar mark != ':' && byteChar mark != '-' then return false
    macParts bytes start parts

def isMacAt (bytes : List UInt8) (start : ℕ) : Option Bool := macParts bytes start (List.range 6)

def macFrom (bytes : List UInt8) : ℕ → ℕ → Option Bool
  | 0, _ => none
  | steps + 1, i =>
    if i + 17 ≤ bytes.length then do
      if ← isMacAt bytes i then return true
      macFrom bytes steps (i + 1)
    else some false

def lineHasAnyMac (line : List Char) : Option Bool :=
  let bytes := bytesOf (toAsciiLowercase line)
  if bytes.length < 17 then some false else macFrom bytes (bytes.length + 1) 0

def serialLineMacOk (line : List Char) (mac : Option String) (allowWithoutMac : Bool) :
    Option Bool := do
  if ← lineHasAnyMac line then return mac.any (serialLineHasMac line)
  return allowWithoutMac

/-- What a label's line has behind its first colon. -/
def addrBehind (after : List Char) : Option (List Char) := do
  let (_, addrPart) ← splitOnce (after.dropWhile isWhiteSpace) ':'
  let word ← (splitWhitespace addrPart).head?
  let token := trimMatches (fun c => c = ',' || c = ';' || c = '|') word
  let addr := trim (token.takeWhile (· ≠ '/'))
  if addr.isEmpty then none else some addr

def labeledAddr (label line : List Char) (mac : Option String) (allowWithoutMac : Bool) :
    Option (Option (List Char)) :=
  match find label (toAsciiLowercase line) with
  | none => some none
  | some idx => do
    if !(← serialLineMacOk line mac allowWithoutMac) then return none
    return addrBehind (← sliceFrom line (idx + utf8Len label))

/-! ### IPv4 -/

def ipv4Tokens (line : List Char) : List (List Char) :=
  wordsBy (fun c => !(c.isDigit || c == '.')) line

/-- The last answer that the lines give. -/
def lastFound (f : List Char → Option (Option (List Char))) (found : Option (List Char)) :
    List (List Char) → Option (Option (List Char))
  | [] => some found
  | line :: rest => do
    match ← f line with
    | some ip => lastFound f (some ip) rest
    | none => lastFound f found rest

/-- The last address of a row of the device table. -/
def deviceAddr (mac : Option String) (line : List Char) : Option (List Char) :=
  let lower := toAsciiLowercase line
  if !has lower "ci-info".toList || !has lower "global".toList then none
  else if mac.any (fun mac => !serialLineHasMac line mac) then none
  else ((ipv4Tokens line).filter isGuestIpv4).getLast?

def labeledIpv4 (mac : Option String) (line : List Char) : Option (Option (List Char)) :=
  (labeledAddr "ipv4 address for".toList line mac false).map (fun ip => ip.filter isGuestIpv4)

def isHostEnd (c : Char) : Bool :=
  c == '/' || c == ':' || c == ' ' || c == '\n' || c == '\r' || c == '\''

/-- The last host of a URL that is an address. -/
def lastUrl : ℕ → Option (List Char) → List Char → Option (Option (List Char))
  | 0, _, _ => none
  | steps + 1, last, rest =>
    match find "://".toList rest with
    | none => some last
    | some idx => do
      let after ← sliceFrom rest (idx + 3)
      let host := after.takeWhile (fun c => !isHostEnd c)
      let last := if isGuestIpv4 host then some host else last
      let rest ← sliceFrom after (min (utf8Len host) (utf8Len after))
      if rest.isEmpty then return last
      lastUrl steps last rest

/-- How much of a log's end is read. -/
def tailLen : ℕ := 64 * 1024

def tailOf (data : List UInt8) : List UInt8 := data.drop (data.length - tailLen)

def ipv4InText (text : List Char) (mac : Option String) : Option (Option (List Char)) := do
  match ← lastFound (fun line => some (deviceAddr mac line)) none (lines text) with
  | some ip => return some ip
  | none =>
    match ← lastFound (labeledIpv4 mac) none (lines text) with
    | some ip => return some ip
    | none => if mac.isSome then return none else lastUrl (text.length + 1) none text

/-- The log is not there when it cannot be read. -/
def ipv4FromSerialLog (file : Option (List UInt8)) (mac : Option String) :
    Option (Option (List Char)) :=
  match file with
  | none => some none
  | some data => ipv4InText (Utf8.lossy (tailOf data)) mac

/-! ### IPv6 -/

def isTokenByte (b : UInt8) : Bool := isHexByte b || byteChar b == ':'

/-- Where the runs of digits and colons begin and end; `opened` is the one that is being read. -/
def spansFrom (opened : Option ℕ) (i : ℕ) : List UInt8 → List (ℕ × ℕ)
  | [] => opened.toList.map (fun start => (start, i))
  | b :: bs =>
    if isTokenByte b then spansFrom (some (opened.getD i)) (i + 1) bs
    else opened.toList.map (fun start => (start, i)) ++ spansFrom none (i + 1) bs

/-- `line[start..stop]` -/
def slice (line : List Char) (span : ℕ × ℕ) : Option (List Char) := do
  let front ← sliceFrom line span.1
  let behind ← sliceFrom line span.2
  if span.1 ≤ span.2 then return front.take (front.length - behind.length) else none

def tokenIpv6 (token : List Char) : Option (List Char) :=
  let token := trimMatches (· = ':') token
  if ':' ∈ token then preferIpv6 [token] else none

def tokensAt (line : List Char) : List (ℕ × ℕ) → Option (List (List Char))
  | [] => some []
  | span :: spans => do
    let token ← slice line span
    let rest ← tokensAt line spans
    return (tokenIpv6 token).toList ++ rest

def ipv6Tokens (line : List Char) : Option (List (List Char)) :=
  tokensAt line (spansFrom none 0 (bytesOf line))

def ipv6Label : List Char := "ipv6 address for".toList

def ipv6OnSerialLine (mac : Option String) (allowWithoutMac : Bool) (line : List Char) :
    Option (Option (List Char)) :=
  let lower := toAsciiLowercase line
  let tagged := has lower ipv6Label
  let ci := has lower "ci-info".toList && has lower "global".toList
  if !tagged && !ci then some none
  else do
    if !(← serialLineMacOk line mac allowWithoutMac) then return none
    if tagged then
      return (← labeledAddr ipv6Label line mac allowWithoutMac).bind (fun ip => preferIpv6 [ip])
    return preferIpv6 (← ipv6Tokens line)

def ipv6FromSerialLog (file : Option (List UInt8)) (mac : Option String)
    (allowWithoutMac : Bool) : Option (Option (List Char)) :=
  match file with
  | none => some none
  | some data =>
    lastFound (ipv6OnSerialLine mac allowWithoutMac) none (lines (Utf8.lossy (tailOf data)))

end Pertisk.SerialLog
