import ElementGrid.Exchange.Gathered
/-!
# View errors

## Main definitions

* `ContributionFault` — what is wrong with a contribution
* `ViewError` — why a view fails, with its wording
* `ViewError.isViolation` — the processes disagree on the protocol itself
-/

namespace ElementGrid

/-- What is wrong with the bytes that a rank contributed. -/
inductive ContributionFault where
  /-- There are too few bytes for a header. -/
  | shortHeader (size : Nat)
  /-- The header begins with another tag. -/
  | badTag (tag : Nat)
  /-- The records that the header announces do not fill the rest. -/
  | wrongBody (count size : Nat)
  /-- A record names no element. -/
  | reservedGid
  deriving DecidableEq, Repr

namespace ContributionFault

/-- A 32-bit number in eight hexadecimal digits. -/
def hexWord (n : Nat) : String :=
  let digits := Nat.toDigits 16 n
  "0x" ++ String.ofList (List.replicate (8 - digits.length) '0' ++ digits)

/-- The wording of a contribution fault. -/
def text : ContributionFault → String
  | shortHeader size => s!"{size} bytes is shorter than the 12-byte header"
  | badTag tag => s!"bad magic {hexWord tag}"
  | wrongBody count size => s!"header announces {count} records but {size} body bytes follow"
  | reservedGid => "record carries the reserved GID"

end ContributionFault

/-- Why a view fails. -/
inductive ViewError where
  /-- The exchange fails. -/
  | exchange (error : ExchangeError)
  /-- The records of a rank have another length. -/
  | recordSize (rank expected found : Nat)
  /-- The contribution of a rank cannot be read. -/
  | malformed (rank : Nat) (fault : ContributionFault)
  /-- Two ranks sent different payloads for one element. -/
  | conflict (gid first second : Nat)
  /-- There are more records than a contribution can announce. -/
  | tooManyRecords (count : Nat)
  deriving DecidableEq, Repr

namespace ViewError

/-- The wording of a failed view. -/
def message : ViewError → String
  | exchange error => error.message
  | recordSize rank expected found => s!"rank {rank} sent {found}-byte records, expected {expected}"
  | malformed rank fault => s!"malformed contribution from rank {rank}: {fault.text}"
  | conflict gid first second =>
    s!"GID {gid} has conflicting payloads from ranks {first} and {second}"
  | tooManyRecords count => s!"{count} records exceed the contribution limit"

/-- The processes disagree on the protocol itself: on the layout of records or on the table. -/
def isViolation : ViewError → Bool
  | recordSize .. => true
  | malformed .. => true
  | exchange (.malformedTable _) => true
  | _ => false

end ViewError

end ElementGrid
