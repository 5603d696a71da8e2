import DbGovernor.Model.ClientMessage
import DbGovernor.Verification.Shared.Frames
import DbGovernor.Verification.SharedMemory.Names

/-!
# Messages and the pieces in which they arrive

A whole message is read back as it was written. `get_data_from_client` keeps nothing between two
calls of `recv`, so it reads the messages that were sent only if each call brings a whole one.
-/

namespace DbGovernor

/-! ### Integers -/

/-- An integer that `k` bytes hold in two's complement. -/
def FitsBytes (k : ℕ) (n : ℤ) : Prop := -(256 : ℤ) ^ k ≤ 2 * n ∧ 2 * n < 256 ^ k

instance (k : ℕ) (n : ℤ) : Decidable (FitsBytes k n) := inferInstanceAs (Decidable (_ ∧ _))

section Integers

@[simp] theorem length_leBytes (k : ℕ) (n : ℤ) : (leBytes k n).length = k := by
  induction k generalizing n with
  | zero => rfl
  | succ k ih => simp [leBytes, ih]

theorem leNat_lt (bytes : List UInt8) : leNat bytes < 256 ^ bytes.length := by
  induction bytes with
  | nil => simp [leNat]
  | cons b bytes ih =>
      have hb : b.toNat < 256 := b.toNat_lt
      rw [leNat, List.length_cons, pow_succ]
      omega

/-- The bytes of an integer stand for it up to a multiple of their range. -/
theorem leNat_leBytes (k : ℕ) (n : ℤ) : ∃ q : ℤ, n = leNat (leBytes k n) + 256 ^ k * q := by
  induction k generalizing n with
  | zero => exact ⟨n, by simp [leBytes, leNat]⟩
  | succ k ih =>
      obtain ⟨q, hq⟩ := ih (n / 256)
      have hbyte : ((UInt8.ofNat (n % 256).toNat).toNat : ℤ) = n % 256 := by
        have hlow := Int.emod_nonneg n (by decide : (256 : ℤ) ≠ 0)
        have hhigh := Int.emod_lt_of_pos n (by decide : (0 : ℤ) < 256)
        rw [UInt8.toNat_ofNat', Nat.mod_eq_of_lt (by omega), Int.toNat_of_nonneg hlow]
      refine ⟨q, ?_⟩
      calc n = n % 256 + 256 * (n / 256) := (Int.emod_add_mul_ediv n 256).symm
        _ = n % 256 + 256 * (leNat (leBytes k (n / 256)) + 256 ^ k * q) := by rw [← hq]
        _ = leNat (leBytes (k + 1) n) + 256 ^ (k + 1) * q := by
          rw [leBytes, leNat]
          push_cast
          rw [hbyte, pow_succ]
          ring

theorem leInt_leBytes {k : ℕ} {n : ℤ} (h : FitsBytes k n) : leInt (leBytes k n) = n := by
  obtain ⟨q, hq⟩ := leNat_leBytes k n
  have hlt : (leNat (leBytes k n) : ℤ) < 256 ^ k := by
    have hnat := leNat_lt (leBytes k n)
    rw [length_leBytes] at hnat
    exact_mod_cast hnat
  have hpos : (0 : ℤ) < 256 ^ k := by positivity
  obtain ⟨hlow, hhigh⟩ := h
  have hq0 : q ≤ 0 := by
    by_contra hq0
    have hbig : (256 : ℤ) ^ k ≤ 256 ^ k * q := le_mul_of_one_le_right hpos.le (by omega)
    omega
  have hq1 : -1 ≤ q := by
    by_contra hq1
    have hsmall : (256 : ℤ) ^ k * q ≤ 256 ^ k * (-2) :=
      mul_le_mul_of_nonneg_left (by omega) hpos.le
    omega
  have hcases : (2 * leNat (leBytes k n) < 256 ^ k) ↔ q = 0 := by
    have hcast : (2 * leNat (leBytes k n) < 256 ^ k) ↔
        2 * (leNat (leBytes k n) : ℤ) < 256 ^ k := by
      exact_mod_cast Iff.rfl
    rw [hcast]
    constructor
    · intro hhalf
      by_contra hne
      obtain rfl : q = -1 := by omega
      omega
    · rintro rfl
      omega
  rw [leInt, length_leBytes]
  by_cases h0 : q = 0
  · rw [if_pos (hcases.mpr h0)]
    subst h0
    omega
  · rw [if_neg fun hhalf => h0 (hcases.mp hhalf)]
    obtain rfl : q = -1 := by omega
    omega

end Integers

/-! ### Whole messages -/

/-- The integers of a message fit their C types. -/
structure ClientData.Ranged (m : ClientData) : Prop where
  type : FitsBytes 4 m.type
  tid : FitsBytes 4 m.tid
  pid : FitsBytes 4 m.pid
  cpu : FitsBytes 8 m.cpu
  write : FitsBytes 8 m.write
  read : FitsBytes 8 m.read
  updateTime : FitsBytes 8 m.updateTime
  naoseconds : FitsBytes 8 m.naoseconds

section Messages

variable {off n : ℕ} {front rest : List UInt8}

theorem bytesAt_front (h : front.length = n) : bytesAt 0 n (front ++ rest) = front := by
  rw [bytesAt, List.drop_zero, ← h, List.take_left]

theorem bytesAt_whole (h : front.length = n) : bytesAt 0 n front = front := by
  rw [bytesAt, List.drop_zero, ← h, List.take_length]

theorem bytesAt_rest (h : front.length ≤ off) :
    bytesAt off n (front ++ rest) = bytesAt (off - front.length) n rest := by
  rw [bytesAt, List.drop_append, List.drop_eq_nil_of_le h, List.nil_append, bytesAt]

/-- The field of the name. -/
theorem length_nameBytes (junk : ℕ → UInt8) (u : Username) :
    (u.bytes ++ 0 :: (List.range (usernamemaxlen - 1 - u.bytes.length)).map
      fun i => junk i).length = usernamemaxlen := by
  have hfits := u.fits
  simp only [List.length_append, List.length_cons, List.length_map, List.length_range]
  omega

theorem strlcpy_nameBytes (u : Username) (tail : List UInt8) : strlcpy (u.bytes ++ 0 :: tail) = u := by
  ext1
  rw [strlcpy]
  dsimp only
  rw [Segments.takeWhile_ne_cons u.noNul]
  exact List.take_of_length_le (Nat.le_pred_of_lt u.fits)

theorem ClientData.length_encode (junk : ℕ → UInt8) (m : ClientData) :
    (m.encode junk).length = clientDataSize := by
  have hname := length_nameBytes junk m.username
  rw [ClientData.encode]
  simp only [List.length_append, length_leBytes, List.length_map, List.length_range] at hname ⊢
  rw [hname]
  rfl

/-- A whole message is read as it was written, whatever is in the bytes between its fields. -/
theorem ClientData.decode_encode (junk : ℕ → UInt8) {m : ClientData} (h : m.Ranged) :
    ClientData.decode (m.encode junk) = m := by
  have hname := length_nameBytes junk m.username
  have hcopy := strlcpy_nameBytes m.username
    ((List.range (usernamemaxlen - 1 - m.username.bytes.length)).map fun i => junk i)
  rw [ClientData.encode]
  generalize m.username.bytes ++ 0 :: (List.range (usernamemaxlen - 1 -
    m.username.bytes.length)).map (fun i => junk i) = name at hname hcopy ⊢
  have hpad : ((List.range 4).map fun i => junk (usernamemaxlen + i)).length = 4 := by simp
  generalize (List.range 4).map (fun i => junk (usernamemaxlen + i)) = pad at hpad ⊢
  simp only [ClientData.decode, List.append_assoc, bytesAt_front, bytesAt_rest, bytesAt_whole,
    length_leBytes, hname, hpad, usernamemaxlen, Nat.reduceLeDiff, Nat.reduceSub, hcopy,
    leInt_leBytes h.type, leInt_leBytes h.tid, leInt_leBytes h.pid, leInt_leBytes h.cpu,
    leInt_leBytes h.write, leInt_leBytes h.read, leInt_leBytes h.updateTime,
    leInt_leBytes h.naoseconds]

/-! ### Pieces -/

/-- A message that `send_info` wrote completely, with the bytes it left unwritten. -/
structure Sent where
  data : ClientData
  junk : ℕ → UInt8
  ranged : data.Ranged

def Sent.bytes (m : Sent) : List UInt8 := m.data.encode m.junk

/-- The results of `recv` are the bytes of the messages, cut in some way. -/
def Carries (results : List Recv) (sent : List Sent) : Prop :=
  (results.map Recv.chunk).flatten = (sent.map Sent.bytes).flatten

/-- A call that brings a whole message reads that message. -/
theorem Recv.decode_of_whole {r : Recv} {m : Sent} (h : r.chunk = m.bytes) :
    ClientData.decode r.bytes = m.data := by
  have hlength : r.chunk.length = clientDataSize := by
    rw [h]
    exact ClientData.length_encode m.junk m.data
  have hbytes : r.bytes = m.bytes := by
    rw [Recv.bytes, hlength, List.drop_eq_nil_of_le r.size.le, List.append_nil, h]
  rw [hbytes]
  exact ClientData.decode_encode m.junk m.ranged

theorem getDataFromClient_of_whole {sent : List Sent} {results : List Recv}
    (h : results.map Recv.chunk = sent.map Sent.bytes) :
    getDataFromClient results = sent.map Sent.data := by
  induction results generalizing sent with
  | nil =>
      have hnil : sent = [] := by simpa using h.symm
      rw [hnil]
      rfl
  | cons r results ih =>
      cases sent with
      | nil => simp at h
      | cons m sent =>
          simp only [List.map_cons, List.cons.injEq] at h
          have hrest := ih h.2
          simp only [getDataFromClient, List.map_cons] at hrest ⊢
          rw [Recv.decode_of_whole h.1, hrest]

end Messages

/-- The messages that the daemon takes from a connection are those that were sent exactly if each
call of `recv` brings a whole message. -/
theorem messages_read_iff_whole (sent : List Sent) (results : List Recv)
    (h : Carries results sent) :
    getDataFromClient results = sent.map Sent.data ↔
      ∀ r ∈ results, r.chunk.length = clientDataSize := by
  have hsent : ∀ f ∈ sent.map Sent.bytes, f.length = clientDataSize := by
    intro f hf
    obtain ⟨m, -, rfl⟩ := List.mem_map.mp hf
    exact ClientData.length_encode m.junk m.data
  constructor
  · intro hread
    have hcount : (results.map Recv.chunk).length = (sent.map Sent.bytes).length := by
      have hlength := congrArg List.length hread
      simpa [getDataFromClient] using hlength
    have htotal : (results.map Recv.chunk).flatten.length =
        (results.map Recv.chunk).length * clientDataSize := by
      rw [show (results.map Recv.chunk).flatten = (sent.map Sent.bytes).flatten from h,
        Frames.length_flatten_of_length hsent, hcount]
    have hfits : ∀ c ∈ results.map Recv.chunk, c.length ≤ clientDataSize := by
      intro c hc
      obtain ⟨r, -, rfl⟩ := List.mem_map.mp hc
      exact r.fits
    intro r hr
    exact Frames.length_eq_of_total hfits htotal _ (List.mem_map_of_mem hr)
  · intro hwhole
    have hchunks : ∀ c ∈ results.map Recv.chunk, c.length = clientDataSize := by
      intro c hc
      obtain ⟨r, hr, rfl⟩ := List.mem_map.mp hc
      exact hwhole r hr
    exact getDataFromClient_of_whole (Frames.eq_of_flatten_eq (by decide) hchunks hsent h)

/-- The begin of a statement. -/
def sampleSent : Sent where
  data := sendInfo [117] 0 1 1 ⟨500, 0, 0⟩ 1000000 0
  junk := fun _ => 255
  ranged := ⟨by decide, by decide, by decide, by decide, by decide, by decide, by decide, by decide⟩

/-- A call that finds the message whole. -/
def wholeRecv : Recv where
  message := List.replicate clientDataSize 0
  chunk := sampleSent.bytes
  size := List.length_replicate
  nonempty := by decide
  fits := by decide

theorem messages_read_iff_whole_sample :
    getDataFromClient [wholeRecv] = [sampleSent].map Sent.data := by
  refine (messages_read_iff_whole [sampleSent] [wholeRecv] rfl).mpr ?_
  intro r hr
  rw [List.mem_singleton.mp hr]
  decide

/-- Two calls between which the message is cut. -/
def cutRecvs : List Recv :=
  [{ message := List.replicate clientDataSize 0
     chunk := sampleSent.bytes.take 1
     size := List.length_replicate
     nonempty := by decide
     fits := by decide },
   { message := List.replicate clientDataSize 0
     chunk := sampleSent.bytes.drop 1
     size := List.length_replicate
     nonempty := by decide
     fits := by decide }]

/-- The two parts of a message are taken for two messages. -/
theorem cut_message_read_twice :
    ¬ ∀ (sent : List Sent) (results : List Recv), Carries results sent →
      getDataFromClient results = sent.map Sent.data := by
  intro h
  have hcarries : Carries cutRecvs [sampleSent] := by
    rw [Carries]
    decide
  have hread := congrArg List.length (h [sampleSent] cutRecvs hcarries)
  exact absurd hread (by decide)

end DbGovernor
