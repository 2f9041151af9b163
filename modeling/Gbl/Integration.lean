import Gbl.Error

/-!
# The error type of `libgbl` (`libgbl/src/error.rs`)

`IntegrationError` joins the errors of the libraries `libgbl` is made of.
-/

namespace Gbl

open Lib

inductive IoError where
  | oom
  | io
  | noSuchPartition
  | rangeOutsidePartition
  | noSuchValue
  | invalidValueSize
  | insufficientSpace (size : Nat)
  | notImplemented
  deriving DecidableEq, Repr

inductive SlotVerifyError where
  | invalidArgument
  | invalidMetadata
  | io
  | oom
  | publicKeyRejected
  | rollbackIndex
  | unsupportedVersion
  | verification
  | internal
  deriving DecidableEq, Repr

inductive IntegrationError where
  | avbDescriptorError (code : Nat)
  | avbIoError (e : IoError)
  | avbSlotVerifyError (e : SlotVerifyError)
  | unificationError (e : Error)
  | zbiError (code : Nat)
  | tryFromIntError
  deriving DecidableEq, Repr

end Gbl
