import PageCheck.Service.Answer

/-! # Endpoints

The addresses of services. An address is refused, without any attempt to connect, unless it is
absolute, asks for one of the two web schemes, and names a host and a port that can exist.
-/

namespace PageCheck

/-- An address to which a connection can be tried. -/
structure Endpoint where
  /-- Whether the connection is to be encrypted. -/
  secure : Bool
  host : String
  port : UInt16
  deriving DecidableEq, Repr

/-- Why an address is refused. -/
inductive Refusal where
  | relativeAddress
  | foreignScheme
  | missingHost
  | badHost
  | badPort
  deriving DecidableEq, Repr

def Refusal.message : Refusal → String
  | relativeAddress => "the address is not absolute"
  | foreignScheme => "the scheme is neither http nor https"
  | missingHost => "the address names no host"
  | badHost => "the host is not valid"
  | badPort => "the port is not valid"

namespace Endpoint

/-- Whether a character may stand in a scheme behind its first letter. -/
def isSchemeChar (c : Char) : Bool :=
  c.isAlphanum || c = '+' || c = '-' || c = '.'

/-- The scheme of an absolute address, in lower case, and what follows its colon. -/
def scheme? (address : List Char) : Option (String × List Char) :=
  match address.takeWhile isSchemeChar, address.dropWhile isSchemeChar with
  | first :: name, ':' :: rest =>
    if first.isAlpha then some (String.ofList ((first :: name).map Char.toLower), rest) else none
  | _, _ => none

/-- Whether a character ends the part of an address that names host and port. -/
def endsAuthority (c : Char) : Bool :=
  c = '/' || c = '\\' || c = '?' || c = '#'

/-- The host and port part of an address, without the user that may stand before it. -/
def authority (rest : List Char) : List Char :=
  let whole := (rest.dropWhile fun c => c = '/' || c = '\\').takeWhile (!endsAuthority ·)
  (whole.reverse.takeWhile (· ≠ '@')).reverse

def isHostChar (c : Char) : Bool :=
  0x20 < c.toNat && c.toNat ≠ 0x7F && !"#%/:<>?@[\\]^|".toList.contains c

/-- The number below `bound` that digits stand for. No digits at all stand for none. -/
def number? (bound : Nat) (digits : List Char) : Option Nat :=
  let value := digits.foldl (fun value c => 10 * value + (c.toNat - '0'.toNat)) 0
  if !digits.isEmpty && digits.all Char.isDigit && value < bound then some value else none

/-- Whether the name of a host can exist: a name that ends in a number has to be four bytes. -/
def isHost (name : List Char) : Bool :=
  let parts := name.splitOn '.'
  name.all isHostChar &&
    match parts.getLast? with
    | some last =>
      if !last.isEmpty && last.all Char.isDigit then
        parts.length = 4 && parts.all fun part => (number? 256 part).isSome
      else true
    | none => false

/-- Whether a host in square brackets can exist. -/
def isBracketedHost (inner : List Char) : Bool :=
  inner.contains ':' && inner.all "0123456789abcdefABCDEF:.".toList.contains

def port? (usual : UInt16) : List Char → Option UInt16
  | [] | [':'] => some usual
  | ':' :: digits => (number? 65536 digits).map UInt16.ofNat
  | _ => none

/-- The host of an address, and what follows it. -/
def host? : List Char → Option (List Char × List Char)
  | '[' :: rest =>
    match rest.dropWhile (· ≠ ']') with
    | _ :: behind =>
      let inner := rest.takeWhile (· ≠ ']')
      if isBracketedHost inner then some ('[' :: inner ++ [']'], behind) else none
    | [] => none
  | authority =>
    let name := authority.takeWhile (· ≠ ':')
    if isHost name then some (name, authority.dropWhile (· ≠ ':')) else none

/-- Read an address. Blanks in front of it do not count. -/
def read (address : String) : Except Refusal Endpoint :=
  match scheme? (address.toList.dropWhile (·.toNat ≤ 0x20)) with
  | none => .error .relativeAddress
  | some (scheme, rest) =>
    if scheme ≠ "http" ∧ scheme ≠ "https" then .error .foreignScheme
    else
      let place := authority rest
      if (place.takeWhile (· ≠ ':')).isEmpty then .error .missingHost
      else
        match host? place with
        | none => .error .badHost
        | some (host, behind) =>
          match port? (if scheme = "http" then 80 else 443) behind with
          | none => .error .badPort
          | some port => .ok { secure := scheme = "https", host := String.ofList host, port }

/-- Why a call to an address fails where there is no network: a refused address fails before any
    connection is tried, and every other one when it is. -/
def offlineReason (address : String) : String :=
  match read address with
  | .error refusal => refusal.message
  | .ok endpoint => "no connection to " ++ endpoint.host

end Endpoint

/-- The failure of a call to an address where there is no network. -/
def Failure.offline (address : String) : Failure :=
  .transport address (Endpoint.offlineReason address)

end PageCheck
