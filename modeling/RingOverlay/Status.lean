/-!
# `RingOverlay.Status` — how a remote call ended

A remote call that gives no answer ends with a status: one of seventeen codes and a message.

## Contents
- `StatusCode` with its numbers `toNat` and `ofInt`.
- `Status`.
-/

namespace RingOverlay

/-- The ways a remote call can end. -/
inductive StatusCode where
  | ok | cancelled | unknown | invalidArgument | deadlineExceeded | notFound | alreadyExists
  | permissionDenied | resourceExhausted | failedPrecondition | aborted | outOfRange
  | unimplemented | internal | unavailable | dataLoss | unauthenticated
  deriving DecidableEq, Inhabited, Repr

namespace StatusCode

/-- All codes in the order of their numbers. -/
def all : List StatusCode :=
  [ok, cancelled, unknown, invalidArgument, deadlineExceeded, notFound, alreadyExists,
    permissionDenied, resourceExhausted, failedPrecondition, aborted, outOfRange,
    unimplemented, internal, unavailable, dataLoss, unauthenticated]

/-- The number that stands for a code on the wire. -/
def toNat (c : StatusCode) : Nat := all.idxOf c

/-- The code of a number; a number that stands for none is read as `unknown`. -/
def ofInt (n : Int) : StatusCode :=
  if n < 0 then unknown else (all[n.toNat]?).getD unknown

end StatusCode

/-- The end of a remote call without an answer. -/
structure Status where
  code : StatusCode
  message : String
  deriving DecidableEq, Inhabited, Repr

end RingOverlay
