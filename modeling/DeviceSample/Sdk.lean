import Mathlib.Data.List.Basic

/-!
Status words of the ThreadX, NetX Duo and Azure SDK calls. Only the codes that the modelled code
compares with have a name of their own; `other` stands for every further code, which is never the
success code.
-/

namespace DeviceSample

inductive Status where
  /-- `NX_SUCCESS`, `NX_AZURE_IOT_SUCCESS` -/
  | success
  /-- `NX_AZURE_IOT_CONNECTING` -/
  | connecting
  | notConnected
  | notSuccessful
  | dnsQueryFailed
  | mqttBadUsernamePassword
  | mqttNotAuthorized
  | other (code : Nat)
  deriving DecidableEq, Repr

/-- `else if ((status = call))` chains: the status of the first call that fails, and success when
each succeeds. -/
def firstFailure : List Status → Status
  | [] => .success
  | status :: rest => if status = .success then firstFailure rest else status

theorem firstFailure_eq_success {statuses : List Status} :
    firstFailure statuses = .success ↔ ∀ status ∈ statuses, status = .success := by
  induction statuses with
  | nil => simp [firstFailure]
  | cons status rest ih =>
      rw [firstFailure, List.forall_mem_cons, ← ih]
      split
      · simp [*]
      · simp [*]

end DeviceSample
