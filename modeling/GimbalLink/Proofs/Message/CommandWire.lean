import GimbalLink.Message.CommandLayout
import GimbalLink.Proofs.Frame.Delivery
import GimbalLink.Proofs.Message.PackedChannels
/-
  Commands over the wire.

  A command goes out in four layers: its payload, the frame around it, the frame's
  bytes, and at the far side a receiver that puts the bytes together again. What is
  read at the end is the command that was sent, but for channel values that do not fit
  into eleven bits (`Command.capped`).

  What is proved:
    1. `reads_payload`: every payload is read back by the layout of its code.
    2. `survives_wire`: the four layers together.
-/
namespace GimbalLink

namespace Command

/-- The command as the wire can carry it. -/
def capped : Command → Command
  | setInputs channels status => setInputs (channels.map clampChannel) status
  | c => c

theorem reads_payload (c : Command) :
    ∃ r, reader? c.code = some r ∧ Reader.Reads r c.payload c.capped := by
  cases c with
  | getVersion => exact ⟨_, rfl, .pure' _⟩
  | getLiveData fields => exact ⟨_, rfl, (Reader.reads_word16 _).map _⟩
  | camera action =>
    have h : Reader.Reads (Reader.take 6) (camera action).payload [0, action, 0, 0, 0, 0] :=
      Reader.reads_take rfl
    exact ⟨_, rfl, h.map fun bs => camera (bs.getD 1 0)⟩
  | setAngles pitch roll yaw flags kind =>
    have hp : (setAngles pitch roll yaw flags kind).payload =
        pitch.toBytes ++ (roll.toBytes ++ (yaw.toBytes ++ ([flags] ++ ([kind] ++ [])))) := by
      simp [payload]
    refine ⟨_, rfl, ?_⟩
    rw [hp]
    exact (Reader.reads_binary32 pitch).bind ((Reader.reads_binary32 roll).bind
      ((Reader.reads_binary32 yaw).bind ((Reader.reads_byte flags).bind
        ((Reader.reads_byte kind).bind (.pure' _)))))
  | setPulses pitch roll yaw =>
    have hp : (setPulses pitch roll yaw).payload =
        word16 pitch ++ (word16 roll ++ (word16 yaw ++ [])) := by simp [payload]
    refine ⟨_, rfl, ?_⟩
    rw [hp]
    exact (Reader.reads_word16 pitch).bind ((Reader.reads_word16 roll).bind
      ((Reader.reads_word16 yaw).bind (.pure' _)))
  | setInputs channels status =>
    have hc : (setInputs channels status).capped =
        setInputs (unpackChannels (packChannels channels)) status := by
      rw [capped, unpackChannels_packChannels]
    refine ⟨_, rfl, ?_⟩
    rw [hc]
    exact (Reader.reads_take (length_packChannels channels)).bind
      ((Reader.reads_byte status).bind (.pure' _))
  | setHome place => exact ⟨_, rfl, (Reader.reads_sentLocation place).map _⟩
  | setTarget place => exact ⟨_, rfl, (Reader.reads_sentLocation place).map _⟩
  | linkStatus status => exact ⟨_, rfl, (Reader.reads_linkStatus status).map _⟩

theorem ofFrame_of_payload {f : Frame} {c : Command} (hc : f.command = c.code)
    (hp : f.payload = c.payload) : ofFrame f = .ok c.capped := by
  obtain ⟨r, hr, hread⟩ := c.reads_payload
  simp only [ofFrame, hc, hp, hr, hread.exactly]

/-- Every command makes a frame, the frame's bytes complete it at a receiver with the
last of them, and the frame taken there reads as the command, each channel capped. -/
theorem survives_wire (c : Command) (start : StartByte) :
    ∃ f bytes r, c.toFrame start = .ok f ∧ f.payload.length = c.payloadSize ∧
      f.encode = .ok bytes ∧ bytes.length = c.payloadSize + 5 ∧
      run Receiver.feed (.ofFilter .any) bytes =
        (r, List.replicate (c.payloadSize + 4) .more ++ [.complete]) ∧
      r.take.2 = some f ∧ ofFrame f = .ok c.capped := by
  have hf := c.toFrame_eq_ok start
  -- From here on only the frame's fields matter, not the bound that it carries.
  generalize hg : (⟨start, c.code, c.payload, _⟩ : Frame) = f at hf
  have hp : f.payload = c.payload := by rw [← hg]
  have hc : f.command = c.code := by rw [← hg]
  have hs : f.size = c.payloadSize + 5 := by
    rw [Frame.size, hp, length_payload, headerSize, checksumSize]
    omega
  refine ⟨f, f.toBytes, ⟨.any, .ready f⟩, hf, ?_, f.encode_eq_ok, ?_, ?_, rfl, ?_⟩
  · rw [hp, length_payload]
  · rw [f.length_toBytes, hs]
  · rw [Receiver.run_feed_toBytes f (StartFilter.accept_any f.start), hs]
    rfl
  · exact ofFrame_of_payload hc hp

end Command

end GimbalLink
