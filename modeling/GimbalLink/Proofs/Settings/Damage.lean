import GimbalLink.Proofs.Message.Answers
import GimbalLink.Proofs.Settings.RoundTrip
/-
  Bytes that are no stored settings, or not quite.

  A reader is frontal if it goes by the bytes that it takes and by nothing behind them. Then
  no value is read from less than the whole of such bytes, wherever they are cut. With the
  law goes a bound on the value: what would be stored for it is no longer than the bytes
  taken. Both pass from the readers of the parts to the readers put together of them
  (`Frontal.bind`).

  What is proved:
    1. `Frontal.none_of_cut`: a frontal reader fails on bytes of a value that are cut short.
    2. `frontal_load`, for each part and for the settings, and `Settings.frontal_heading`.
    3. `Settings.heading_eq_some_iff`: where a magic number and a version can be read.
    4. `Settings.never_misread`: what is made of any bytes, of bytes cut short, and of bytes
       that are longer than the settings need.
-/
namespace GimbalLink

namespace Reader

variable {α β : Type}

/-- The reader goes by the bytes that it takes alone, and those are no fewer than the size of
the value. -/
def Frontal (r : Reader α) (size : α → Nat) : Prop :=
  ∀ bs a rest, r bs = some (a, rest) →
    ∃ used, bs = used ++ rest ∧ Reads r used a ∧ size a ≤ used.length

namespace Frontal

variable {r : Reader α} {size : α → Nat}

theorem pure' {a : α} (h : size a = 0) : Frontal (pure a) size := by
  intro bs b rest hr
  cases hr
  exact ⟨[], rfl, .pure' a, Nat.le_of_eq h⟩

theorem failure' : Frontal (failure : Reader α) size := nofun

/-- What the first reader took is charged to it; the second one answers for what is left of
the size. -/
theorem bind {k : α → Reader β} {whole : β → Nat} (hr : Frontal r size)
    (hk : ∀ a, Frontal (k a) fun b => whole b - size a) : Frontal (r >>= k) whole := by
  intro bs b rest h
  obtain ⟨a, cs, hfirst, hsecond⟩ := bind_eq_some h
  obtain ⟨front, rfl, hread, hsize⟩ := hr _ _ _ hfirst
  obtain ⟨back, rfl, hreadk, hsizek⟩ := hk a _ _ _ hsecond
  refine ⟨front ++ back, (List.append_assoc front back rest).symm, hread.bind hreadk, ?_⟩
  have hleft : whole b - size a ≤ back.length := hsizek
  rw [List.length_append]
  omega

theorem ite' {c : Prop} [Decidable c] {s : Reader α} (hr : c → Frontal r size)
    (hs : ¬c → Frontal s size) : Frontal (if c then r else s) size := by
  split
  · next h => exact hr h
  · next h => exact hs h

theorem map {f : α → β} {whole : β → Nat} (hr : Frontal r size)
    (h : ∀ a, whole (f a) ≤ size a) : Frontal (do return f (← r)) whole :=
  hr.bind fun a => .pure' (Nat.sub_eq_zero_of_le (h a))

/-- From bytes of a value that are cut short nothing is read. -/
theorem none_of_cut (hr : Frontal r size) {bs : Bytes} {a : α} (h : Reads r bs a) {k : Nat}
    (hk : k < bs.length) : r (bs.take k) = none := by
  cases hcut : r (bs.take k) with
  | none => rfl
  | some y =>
    obtain ⟨b, rest⟩ := y
    obtain ⟨used, htake, hread, -⟩ := hr _ _ _ hcut
    -- The same bytes would be read with the cut-off ones left over, and with none.
    have hwhole : bs = used ++ (rest ++ bs.drop k) := by
      rw [← List.append_assoc, ← htake, List.take_append_drop]
    have hall := h []
    rw [List.append_nil, hwhole, hread] at hall
    obtain ⟨-, hdrop⟩ := List.append_eq_nil_iff.1 (Prod.mk.inj (Option.some.inj hall)).2
    exact absurd (List.drop_eq_nil_iff.1 hdrop) (Nat.not_le.2 hk)

end Frontal

theorem frontal_byte : Frontal byte fun _ => 1 := by
  intro bs a rest h
  cases bs with
  | nil => cases h
  | cons b bs =>
    cases h
    exact ⟨[a], rfl, reads_byte a, Nat.le_refl 1⟩

theorem frontal_take (n : Nat) : Frontal (take n) fun _ => n := by
  intro bs a rest h
  unfold take at h
  split at h
  · next hn =>
    cases h
    have hlen : (bs.take n).length = n := List.length_take_of_le hn
    exact ⟨bs.take n, (List.take_append_drop n bs).symm, reads_take hlen, Nat.le_of_eq hlen.symm⟩
  · cases h

theorem frontal_binary32 : Frontal binary32 fun _ => 4 := by
  have hword : Frontal word32 fun _ => 4 := (frontal_take 4).map fun _ => Nat.le_refl 4
  exact hword.map fun _ => Nat.le_refl 4

end Reader

open Reader (Frontal Reads)

/-! ## Parts -/

namespace Varint

variable {α : Type} {last n : Nat}

/-- A number that is out of bounds is not read. -/
theorem frontal_read_map {f : Nat → α} {size : α → Nat} (hl : last < 128)
    (hs : ∀ v < bound last n, size (f v) ≤ (write n v).length) :
    Frontal (do return f (← read last n)) size := by
  intro bs a rest h
  obtain ⟨v, cs, hread, hpure⟩ := Reader.bind_eq_some h
  cases hpure
  obtain ⟨form, rfl, hform, rfl⟩ := form_of_read hl hread
  exact ⟨form, rfl, (reads_form hl hform).map f,
    Nat.le_trans (hs _ (value_lt_bound hl hform)) (length_write_le hform)⟩

theorem frontal_read16 : Frontal read16 fun w => (write16 w).length := by
  refine frontal_read_map (by decide) fun v hv => Nat.le_of_eq ?_
  rw [write16, UInt16.toNat_ofNat_of_lt' hv]

theorem frontal_read32 : Frontal read32 fun w => (write32 w).length := by
  refine frontal_read_map (by decide) fun v hv => Nat.le_of_eq ?_
  rw [write32, UInt32.toNat_ofNat_of_lt' hv]

theorem frontal_readInt32 : Frontal readInt32 fun i => (writeInt32 i).length := by
  refine frontal_read_map (by decide) fun v hv => Nat.le_of_eq ?_
  rw [writeInt32, zigzag_toInt_ofInt hv]

end Varint

theorem Mode.frontal_load : Frontal load fun m => m.store.length := by
  refine Varint.frontal_read32.bind fun w => ?_
  -- The number of an alternative is all that most of them have.
  have alternative (m : Mode) (n : UInt32) (hm : m.store = Varint.write32 n) (h : w = n) :
      Frontal (pure m) fun m => m.store.length - (Varint.write32 w).length :=
    .pure' (by rw [h, hm, Nat.sub_self])
  refine .ite' (alternative retract 0 rfl) fun _ => ?_
  refine .ite' (alternative neutral 1 rfl) fun _ => ?_
  refine .ite' (alternative external 2 rfl) fun _ => ?_
  refine .ite' (alternative manual 3 rfl) fun _ => ?_
  refine .ite' (alternative position 4 rfl) fun _ => ?_
  refine .ite' (fun h => ?_) fun _ => .failure'
  refine Reader.frontal_byte.map fun n => ?_
  have hn : (unsupported n).store.length = (Varint.write32 5).length + 1 := List.length_append
  show (unsupported n).store.length - (Varint.write32 w).length ≤ 1
  rw [h]
  omega

theorem Angles.frontal_load : Frontal load fun a => a.store.length := by
  refine Reader.frontal_binary32.bind fun roll => Reader.frontal_binary32.bind fun pitch =>
    Reader.frontal_binary32.map fun yaw => ?_
  have h := length_store ⟨roll, pitch, yaw⟩
  show (store ⟨roll, pitch, yaw⟩).length - 4 - 4 ≤ 4
  omega

theorem Assignments.frontal_load : Frontal load fun a => a.store.length :=
  Reader.frontal_byte.bind fun _ => Reader.frontal_byte.bind fun _ =>
    Reader.frontal_byte.map fun _ => Nat.le_refl 1

theorem Location.frontal_load : Frontal load fun l => l.store.length := by
  refine Varint.frontal_readInt32.bind fun latitude => Varint.frontal_readInt32.bind
    fun longitude => Varint.frontal_readInt32.map fun altitude => ?_
  simp only [store, List.length_append]
  omega

theorem frontal_loadOption {α : Type} {store : α → Bytes} {load : Reader α}
    (h : Frontal load fun a => (store a).length) :
    Frontal (loadOption load) fun o => (storeOption store o).length := by
  refine Reader.frontal_byte.bind fun tag => ?_
  refine .ite' (fun _ => .pure' rfl) fun _ => ?_
  refine .ite' (fun _ => ?_) fun _ => .failure'
  exact h.map fun a => Nat.le_refl _

/-! ## Settings -/

namespace Settings

theorem frontal_load : Frontal load fun s => s.store.length := by
  refine Mode.frontal_load.bind fun defaultMode => Angles.frontal_load.bind fun retractAngles =>
    Angles.frontal_load.bind fun neutralAngles => Assignments.frontal_load.bind
      fun assignments => Varint.frontal_read16.bind fun features =>
        Varint.frontal_read32.bind fun searchLimit => Reader.frontal_byte.bind fun busNode =>
          (frontal_loadOption Location.frontal_load).map fun interest => ?_
  simp only [store, List.length_append, List.length_singleton, UInt16.ofBitVec_toBitVec]
  omega

theorem frontal_heading : Frontal heading fun h => (Varint.write32 h.1).length + 1 := by
  refine Varint.frontal_read32.bind fun magic => Reader.frontal_byte.map fun version => ?_
  simp only
  omega

/-- A magic number and a version can be read just where the bytes begin with a form of a number
and go on with a byte. -/
theorem heading_eq_some_iff {bs body : Bytes} {magic : UInt32} {version : UInt8} :
    heading bs = some ((magic, version), body) ↔
      ∃ form, Varint.IsForm 15 4 form ∧ bs = form ++ version :: body ∧
        magic.toNat = Varint.value form := by
  constructor
  · intro h
    obtain ⟨w, cs, hmagic, hversion⟩ := Reader.bind_eq_some h
    obtain ⟨b, ds, hbyte, hpure⟩ := Reader.bind_eq_some hversion
    obtain ⟨v, es, hread, hword⟩ := Reader.bind_eq_some hmagic
    cases hpure
    cases hword
    obtain ⟨form, rfl, hform, rfl⟩ := (Varint.read_eq_some_iff (by decide)).1 hread
    have hlt : Varint.value form < UInt32.size := Varint.value_lt_bound (by decide) hform
    obtain _ | ⟨c, cs⟩ := cs
    · cases hbyte
    · cases hbyte
      exact ⟨form, hform, rfl, UInt32.toNat_ofNat_of_lt' hlt⟩
  · rintro ⟨form, hform, rfl, hvalue⟩
    have hmagic : Reads Varint.read32 form magic := by
      have h := (Varint.reads_form (by decide) hform).map UInt32.ofNat
      rwa [← hvalue, UInt32.ofNat_toNat] at h
    have hread : Reads heading (form ++ [version]) (magic, version) :=
      hmagic.bind ((Reader.reads_byte version).map _)
    rw [List.append_cons]
    exact hread body

/-- What a body comes to by itself. -/
def ofBody (body : Bytes) : Except SettingsError Settings :=
  match load body with
  | none => .error .damaged
  | some (s, _) => .ok s

theorem ofBody_damaged_or_ok (body : Bytes) :
    ofBody body = .error .damaged ∨ ∃ s, ofBody body = .ok s := by
  unfold ofBody
  split
  · exact .inl rfl
  · exact .inr ⟨_, rfl⟩

theorem ofBytes_of_no_heading {bs : Bytes} (h : heading bs = none) :
    ofBytes bs = .error .damaged := by
  simp only [ofBytes, readFrom, h]
  rfl

theorem ofBytes_of_heading {bs body : Bytes}
    (h : heading bs = some ((storedMagic, storedVersion), body)) : ofBytes bs = ofBody body := by
  simp only [ofBytes, readFrom, h, and_self, if_true, ofBody]
  cases load body <;> rfl

/-- What is made of bytes that begin with a magic number and a version. -/
theorem ofBytes_of_form {form : Bytes} (h : Varint.IsForm 15 4 form) (version : UInt8)
    (body : Bytes) :
    ofBytes (form ++ version :: body) =
      if Varint.value form = storedMagic.toNat ∧ version = storedVersion then ofBody body
      else .error .versionMismatch := by
  have hlt : Varint.value form < UInt32.size := Varint.value_lt_bound (by decide) h
  have hvalue : (UInt32.ofNat (Varint.value form)).toNat = Varint.value form :=
    UInt32.toNat_ofNat_of_lt' hlt
  have hheading : heading (form ++ version :: body) =
      some ((UInt32.ofNat (Varint.value form), version), body) :=
    heading_eq_some_iff.2 ⟨form, h, rfl, hvalue⟩
  split
  · next hright =>
    obtain ⟨hright, rfl⟩ := hright
    have hmagic : UInt32.ofNat (Varint.value form) = storedMagic :=
      UInt32.toNat_inj.1 (hvalue.trans hright)
    rw [hmagic] at hheading
    exact ofBytes_of_heading hheading
  · next hwrong =>
    refine read_of_mismatch hheading fun h => hwrong ⟨?_, h.2⟩
    rw [← hvalue, h.1]

/-! ### Headings and bodies -/

section Whole

variable {front body : Bytes} {s : Settings}

theorem ofBytes_of_reads (hfront : Reads heading front (storedMagic, storedVersion))
    (hbody : Reads load body s) (rest : Bytes) : ofBytes (front ++ body ++ rest) = .ok s := by
  rw [List.append_assoc, ofBytes_of_heading (hfront _), ofBody, hbody]

/-- Bytes of settings that are cut short are damaged, wherever the cut is. -/
theorem ofBytes_cut (hfront : Reads heading front (storedMagic, storedVersion))
    (hbody : Reads load body s) {k : Nat} (hk : k < (front ++ body).length) :
    ofBytes ((front ++ body).take k) = .error .damaged := by
  rw [List.length_append] at hk
  rw [List.take_append]
  by_cases h : k < front.length
  · have hnone : (front.take k ++ body.take (k - front.length)) = front.take k := by
      rw [Nat.sub_eq_zero_of_le (Nat.le_of_lt h), List.take_zero, List.append_nil]
    rw [hnone]
    exact ofBytes_of_no_heading (frontal_heading.none_of_cut hfront h)
  · have hle : front.length ≤ k := Nat.not_lt.1 h
    have hcut : load (body.take (k - front.length)) = none :=
      frontal_load.none_of_cut hbody (by omega)
    rw [List.take_of_length_le hle, ofBytes_of_heading (hfront _), ofBody, hcut]

end Whole

/-- Settings are read from a heading and a body, which are no shorter than the stored form. -/
theorem whole_of_ofBytes {bs : Bytes} {s : Settings} (h : ofBytes bs = .ok s) :
    ∃ front body rest, bs = front ++ body ++ rest ∧
      Reads heading front (storedMagic, storedVersion) ∧ Reads load body s ∧
      s.toBytes.length ≤ (front ++ body).length := by
  cases hheading : heading bs with
  | none =>
    rw [ofBytes_of_no_heading hheading] at h
    cases h
  | some y =>
    obtain ⟨⟨magic, version⟩, cs⟩ := y
    by_cases hright : magic = storedMagic ∧ version = storedVersion
    · obtain ⟨rfl, rfl⟩ := hright
      rw [ofBytes_of_heading hheading, ofBody] at h
      cases hload : load cs with
      | none =>
        rw [hload] at h
        cases h
      | some z =>
        obtain ⟨t, rest⟩ := z
        rw [hload] at h
        cases h
        obtain ⟨front, rfl, hfront, hlfront⟩ := frontal_heading _ _ _ hheading
        obtain ⟨body, rfl, hbody, hlbody⟩ := frontal_load _ _ _ hload
        refine ⟨front, body, rest, (List.append_assoc _ _ _).symm, hfront, hbody, ?_⟩
        simp only [toBytes, List.length_append, List.length_singleton] at hlfront hlbody ⊢
        omega
    · rw [read_of_mismatch hheading hright] at h
      cases h

/-- Nothing is misread. Bytes at whose front no magic number and version can be read are
damaged; others are refused under another magic number or version, whatever follows, and under
the right ones they are what the body comes to by itself, which may be damaged too. A stored form
that is cut short is damaged, wherever the cut is. And where settings are read, it is from bytes
at the front that are read so whatever stands behind and of which no less will do; the stored
form of the settings, which is no longer than those bytes, is read as the settings again. -/
theorem never_misread :
    (∀ bs, (¬∃ form version body, Varint.IsForm 15 4 form ∧ bs = form ++ version :: body) →
      ofBytes bs = .error .damaged) ∧
    (∀ form version body, Varint.IsForm 15 4 form →
      ofBytes (form ++ version :: body) =
        if Varint.value form = storedMagic.toNat ∧ version = storedVersion then ofBody body
        else .error .versionMismatch) ∧
    (∀ body, ofBody body = .error .damaged ∨ ∃ s, ofBody body = .ok s) ∧
    (∀ (s : Settings) (k : Nat), k < s.toBytes.length →
      ofBytes (s.toBytes.take k) = .error .damaged) ∧
    ∀ bs s, ofBytes bs = .ok s →
      ∃ used rest, bs = used ++ rest ∧ (∀ more, ofBytes (used ++ more) = .ok s) ∧
        (∀ k < used.length, ofBytes (used.take k) = .error .damaged) ∧
        s.toBytes.length ≤ used.length ∧ ofBytes s.toBytes = .ok s := by
  refine ⟨fun bs h => ?_, fun form version body h => ofBytes_of_form h version body,
    ofBody_damaged_or_ok, fun s k hk => ofBytes_cut reads_heading s.reads_load hk, ?_⟩
  · cases hheading : heading bs with
    | none => exact ofBytes_of_no_heading hheading
    | some y =>
      obtain ⟨form, hform, heq, -⟩ := heading_eq_some_iff.1 hheading
      exact absurd ⟨form, _, _, hform, heq⟩ h
  · intro bs s h
    obtain ⟨front, body, rest, rfl, hfront, hbody, hlength⟩ := whole_of_ofBytes h
    refine ⟨front ++ body, rest, rfl, ofBytes_of_reads hfront hbody,
      fun k hk => ofBytes_cut hfront hbody hk, hlength, ?_⟩
    have hagain := ofBytes_of_reads reads_heading s.reads_load []
    rwa [List.append_nil] at hagain

end Settings

end GimbalLink
