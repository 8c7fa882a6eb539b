import BranchWatch.Capture.Error

/-!
# Asking for a device that may be busy
-/

namespace BranchWatch

/-- What a failed request for the device means. -/
def CollectorError.ofOpening (e : Errno) : CollectorError :=
  if e = .noEntry ∨ e = .noDevice ∨ e = .notSupported then .unsupported .rejected else .errno e

/-- Repeats a request as long as the device is busy, up to the given number of
attempts. -/
def retryWhileBusy {σ α : Type} (attempts : Nat) (request : σ → Except Errno α × σ) :
    σ → Except CollectorError α × σ :=
  go attempts
where
  /-- What happens with so many attempts left. -/
  go : Nat → σ → Except CollectorError α × σ
    | 0, s => (.error (.busy attempts), s)
    | left + 1, s =>
      match request s with
      | (.ok a, s) => (.ok a, s)
      | (.error e, s) => if e = .busy then go left s else (.error (.ofOpening e), s)

end BranchWatch
