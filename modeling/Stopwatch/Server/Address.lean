import Stopwatch.Decimal.Whole
import Stopwatch.Fault
import Stopwatch.Text.Fold

/-!
# Listen addresses

An address is a host and a port with a colon between them; a host with colons stands in brackets. A
port is a number or the name of a well-known service.
-/

namespace Stopwatch

namespace Server

/-- Where a server listens. -/
structure Address where
  host : Text
  port : Nat
deriving DecidableEq, Inhabited

namespace Address

/-- A fault in the form of an address. -/
def malformed (address reason : Text) : Fault :=
  .plain ("listen tcp: address " ++ address ++ ": " ++ reason)

/-- The position of a byte's last occurrence. -/
def lastIndex (b : UInt8) (bs : List UInt8) : Option Nat :=
  (bs.reverse.findIdx? (· == b)).map fun i => bs.length - 1 - i

/-- Brackets where none may be. -/
def strayBracket? (address : Text) (afterOpen afterClose : Nat) : Option Fault :=
  if (address.bytes.drop afterOpen).contains 0x5b then
    some (malformed address "unexpected '[' in address")
  else if (address.bytes.drop afterClose).contains 0x5d then
    some (malformed address "unexpected ']' in address")
  else none

/-- Splits an address into host and port. -/
def split (address : Text) : Except Fault (Text × Text) :=
  let bs := address.bytes
  match lastIndex 0x3a bs with
  | none => .error (malformed address "missing port in address")
  | some colon =>
    let port := address.drop (colon + 1)
    if bs.head? == some 0x5b then
      match bs.findIdx? (· == 0x5d) with
      | none => .error (malformed address "missing ']' in address")
      | some close =>
        if close + 1 == bs.length then .error (malformed address "missing port in address")
        else if close + 1 == colon then
          match strayBracket? address 1 (close + 1) with
          | some f => .error f
          | none => .ok (⟨(bs.take close).drop 1⟩, port)
        else if bs[close + 1]? == some 0x3a then
          .error (malformed address "too many colons in address")
        else .error (malformed address "missing port in address")
    else if (bs.take colon).contains 0x3a then
      .error (malformed address "too many colons in address")
    else match strayBracket? address 0 0 with
      | some f => .error f
      | none => .ok (address.take colon, port)

/-- The ports of well-known services. -/
def services : List (Text × Nat) :=
  [("domain", 53), ("ftp", 21), ("ftps", 990), ("gopher", 70), ("http", 80),
    ("https", 443), ("imap2", 143), ("imap3", 220), ("imaps", 993), ("pop3", 110), ("pop3s", 995),
    ("smtp", 25), ("submissions", 465), ("ssh", 22),
    ("telnet", 23)]

/-- The number of a port given by a number with an optional sign; none if it is not one. -/
def portNumber? (port : Text) : Option Int :=
  let (negative, digits) := Whole.splitSign port.bytes
  if digits.all Whole.isDigit then
    let n : Int := Whole.digitsValue digits
    some (if negative then -n else n)
  else none

/-- The number of a port. -/
def portOf (port : Text) : Except Fault Nat :=
  match portNumber? port with
  | some n => if 0 ≤ n ∧ n ≤ 65535 then .ok n.toNat else .error (malformed port "invalid port")
  | none =>
    match services.find? fun s => s.1 == port.lower with
    | some (_, n) => .ok n
    | none => .error (.plain ("listen tcp: lookup tcp/" ++ port ++ ": unknown port"))

/-- Reads an address; the empty one means any host and any port. -/
def parse (address : Text) : Except Fault Address := do
  if address.isEmpty then return ⟨∅, 0⟩
  let (host, port) ← split address
  return ⟨host, ← portOf port⟩

end Address

end Server

end Stopwatch
