import GimbalLink.Navigation
import GimbalLink.Settings.Basic
import GimbalLink.Message.Command
/-
  Targets: where the gimbal is to point, and the command that points it there.

  Angles go out with pitch and yaw negated, in the gimbal's sign convention. Pulse
  widths pass a dead zone first: what is close to the centre becomes the centre, and
  what lies further out is drawn in by the width of the zone.

  What is proved: no pulse leaves the dead zone shorter than twice the floor
  (`le_deadZone`), so a target's command is never the recentre
  (`toCommand_ne_recenter`).
-/
namespace GimbalLink

/-- The centre of a pulse width, in microseconds. -/
def pulseCentre : UInt16 := 1500

/-- A shorter pulse counts as missing. -/
def pulseFloor : UInt16 := 10

/-- Half the width of the dead zone. -/
def deadBand : UInt16 := 10

def deadZone (pulse : UInt16) : UInt16 :=
  if pulse < pulseFloor then pulseCentre
  else if pulse < pulseCentre - deadBand then pulse + deadBand
  else if pulseCentre + deadBand < pulse then pulse - deadBand
  else pulseCentre

theorem le_deadZone (pulse : UInt16) : 20 ≤ (deadZone pulse).toNat := by
  have hp := pulse.toNat_lt
  unfold deadZone
  simp only [pulseCentre, pulseFloor, deadBand, UInt16.lt_iff_toNat_lt]
  split
  · decide
  · next h1 =>
    have h1 : ¬pulse.toNat < 10 := h1
    split
    · next h2 =>
      have h2 : pulse.toNat < 1490 := h2
      rw [UInt16.toNat_add]
      show 20 ≤ (pulse.toNat + 10) % 2 ^ 16
      omega
    · split
      · next h3 =>
        have h3 : 1510 < pulse.toNat := h3
        rw [UInt16.toNat_sub]
        show 20 ≤ (2 ^ 16 - 10 + pulse.toNat) % 2 ^ 16
        omega
      · decide

/-- Raw pulse widths in microseconds. -/
structure Pulses where
  pitch : UInt16
  roll : UInt16
  yaw : UInt16
  deriving DecidableEq

def Pulses.centre : Pulses := ⟨pulseCentre, pulseCentre, pulseCentre⟩

instance : Inhabited Pulses := ⟨.centre⟩

inductive Target where
  | angles (a : Angles)
  | pulses (p : Pulses)
  deriving DecidableEq

namespace Target

/-- The neutral target of the same kind. -/
def neutral : Target → Target
  | angles _ => angles .zero
  | pulses _ => pulses .centre

/-- The command that points the gimbal at the target. -/
def toCommand : Target → Command
  | angles a => .setAngles (-a.pitch) a.roll (-a.yaw) 0 0
  | pulses p => .setPulses (deadZone p.pitch) (deadZone p.roll) (deadZone p.yaw)

theorem toCommand_ne_recenter (t : Target) : t.toCommand ≠ .recenter := by
  intro h
  cases t with
  | angles a => cases h
  | pulses p =>
    have hz : deadZone p.pitch = 0 := (Command.setPulses.inj h).1
    have hp := le_deadZone p.pitch
    rw [hz] at hp
    exact absurd hp (by decide)

end Target

/-- A target and the mode that it comes from. -/
structure Aim where
  mode : Mode
  target : Target
  deriving DecidableEq

end GimbalLink
