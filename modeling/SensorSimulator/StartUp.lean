import SensorSimulator.LogsFiles

/-!
# What the two mains share on their way in and out

* `turns`           a loop whose turns each make one call, and that returns when a call fails;
* `validatePort`, `closeSocket`, `joinThreads`   of common.c;
* `cmdlineParserFree`   releases the parsed arguments;
* `argsHeld`           what is held behind a successful parse.
-/

namespace SensorSimulator
open Resources

/-- the first `n` turns of a loop all come through -/
def turns (call : Nat → Bool) : Nat → Bool
  | 0 => true
  | i + 1 => turns call i && call i

theorem turns_eq_true (call : Nat → Bool) (n : Nat) :
    turns call n = true ↔ ∀ i < n, call i = true := by
  induction n with
  | zero => simp [turns]
  | succ n ih =>
    unfold turns
    rw [Bool.and_eq_true, ih]
    exact Nat.forall_lt_succ_right.symm

/-! ## common.c -/

/-- `validate_port_status_e` -/
inductive ValidatePortStatus where
  | success
  | invalidPort
  deriving DecidableEq

def ValidatePortStatus.code : ValidatePortStatus → Int
  | .success => 0
  | .invalidPort => -1

def validatePort (serverPort : Int) : ValidatePortStatus :=
  if serverPort < 1024 ∨ serverPort > 65535 then .invalidPort else .success

theorem validatePort_success (port : Int) :
    validatePort port = .success ↔ 1024 ≤ port ∧ port ≤ 65535 := by
  unfold validatePort
  split_ifs with h
  · exact iff_of_false nofun (by omega)
  · exact iff_of_true rfl (by omega)

/-- the descriptor is released whatever `close` comes back with -/
def closeSocket (close : Bool) : Status × Trace :=
  (if close then .success else .error, [.release .socket])

theorem closeSocket_error (close : Bool) : (closeSocket close).1 = .error ↔ close = false := by
  cases close <;> simp [closeSocket]

def joinThreads (join : Nat → Bool) (n : Nat) : Status :=
  if turns join n then .success else .error

theorem joinThreads_error (join : Nat → Bool) (n : Nat) :
    joinThreads join n = .error ↔ ¬ ∀ i < n, join i = true := by
  rw [← turns_eq_true]
  unfold joinThreads
  cases turns join n <;> simp

/-! ## the two mains -/

inductive ExitCode where
  | failure
  | success
  deriving DecidableEq

def cmdlineParserFree : Trace := [.release .args]

theorem argsHeld : Holds {Resource.args} [.acquire .args] := Holds.single _

end SensorSimulator
