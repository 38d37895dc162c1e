import Mathlib.Data.Int.Notation
/-!
# UDS — answer codes and errno values

`UDSErr_t` is an integer in C, and code outside the enumeration reaches
it: a copy function's status byte is returned as it is, and so is a
negative errno value. The model keeps it an integer and names the codes
the library compares against, at their ISO 14229-1 values.
-/

namespace Ardep

namespace Uds

/-- `UDSErr_t`. -/
abbrev UDSErr : Type := ℤ

namespace UDSErr

/-- `UDS_OK`. -/
abbrev ok : UDSErr := 0
/-- `UDS_PositiveResponse`, the same value as `UDS_OK`. -/
abbrev positiveResponse : UDSErr := 0
/-- `UDS_NRC_GeneralReject`. -/
abbrev generalReject : UDSErr := 0x10
/-- `UDS_NRC_ServiceNotSupported`. -/
abbrev serviceNotSupported : UDSErr := 0x11
/-- `UDS_NRC_SubFunctionNotSupported`. -/
abbrev subFunctionNotSupported : UDSErr := 0x12
/-- `UDS_NRC_ConditionsNotCorrect`. -/
abbrev conditionsNotCorrect : UDSErr := 0x22
/-- `UDS_NRC_RequestSequenceError`. -/
abbrev requestSequenceError : UDSErr := 0x24
/-- `UDS_NRC_RequestOutOfRange`. -/
abbrev requestOutOfRange : UDSErr := 0x31
/-- `UDS_NRC_SecurityAccessDenied`. -/
abbrev securityAccessDenied : UDSErr := 0x33
/-- `UDS_NRC_UploadDownloadNotAccepted`. -/
abbrev uploadDownloadNotAccepted : UDSErr := 0x70
/-- `UDS_NRC_GeneralProgrammingFailure`. -/
abbrev generalProgrammingFailure : UDSErr := 0x72
/-- `UDS_NRC_SubFunctionNotSupportedInActiveSession`. -/
abbrev subFunctionNotSupportedInActiveSession : UDSErr := 0x7E
/-- `UDS_ERR_MISUSE`, one of the codes past the response byte. -/
abbrev misuse : UDSErr := 0x109

/-- A status byte returned where an `UDSErr_t` is expected. -/
def ofByte (b : UInt8) : UDSErr := b.toNat

@[simp] theorem ofByte_eq_zero {b : UInt8} : ofByte b = 0 ↔ b = 0 := by
  unfold ofByte
  constructor
  · intro h
    exact UInt8.toNat_inj.mp (by simpa using h)
  · rintro rfl
    rfl

end UDSErr

/-! The errno values of the C library. -/

/-- `EPERM`. -/
abbrev EPERM : ℤ := 1
/-- `ENOENT`. -/
abbrev ENOENT : ℤ := 2
/-- `ENOMEM`. -/
abbrev ENOMEM : ℤ := 12
/-- `EACCES`. -/
abbrev EACCES : ℤ := 13
/-- `EINVAL`. -/
abbrev EINVAL : ℤ := 22
/-- `ENOSPC`. -/
abbrev ENOSPC : ℤ := 28

end Uds

end Ardep
