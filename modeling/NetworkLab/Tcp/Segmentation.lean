import NetworkLab.Lib.Run
import NetworkLab.Tcp.Frame
import NetworkLab.Tcp.Sock

/-!
# The segments of a write

The loop of `tcp_sock_write` cuts a buffer into segments.  The size of a segment is the
least of `snd_wnd`, 1446 and the length of the whole buffer; what has been sent already is
not subtracted.  The loop is right exactly when the sizes happen to add up to the length.
-/
set_option autoImplicit false

namespace NetworkLab.Tcp

open Lib Lib.Run

/-- What one round of the loop sees of `snd_wnd`: at the test for zero, and behind it, when
the size of the segment is computed.  A round that finds zero sleeps, and `sleep_on` comes
back when there is a window again. -/
structure Observed where
  test : UInt16
  wnd : UInt16
  woken : test = 0 → wnd ≠ 0

def maxDataLen : Nat := 1500 - ETHER_HDR_SIZE - IP_BASE_HDR_SIZE - TCP_BASE_HDR_SIZE

@[simp] theorem maxDataLen_eq : maxDataLen = 1446 := rfl

/-- A packet that was handed to `tcp_send_packet`, with the window of that moment. -/
structure Passed where
  wnd : UInt16
  payload : List UInt8

/-- `tcp_sock_write` at the test of its loop.  `reads` are the places, counted from `buf`,
that `memcpy` has read. -/
structure WriteLoop where
  tsk : TcpSock
  sentLen : Int
  reads : List Int
  passed : List Passed

def startWrite (tsk : TcpSock) : WriteLoop :=
  { tsk := tsk, sentLen := 0, reads := [], passed := [] }

def places (start : Int) (count : Nat) : List Int :=
  (List.range count).map fun (k : Nat) => start + k

/-- The bytes at some places of the memory, which goes on before and behind the buffer. -/
def bytesAt (memory : Int → UInt8) (start : Int) (count : Nat) : List UInt8 :=
  (places start count).map memory

/-- One round of the loop; `none` when the loop is over.  `sent_len` is an `int`. -/
def writeRound (memory : Int → UInt8) (len : Nat) (loop : WriteLoop) (observed : Observed) :
    Option WriteLoop :=
  if loop.sentLen < len then
    let dataLen := min observed.wnd.toNat (min len maxDataLen)
    let payload := bytesAt memory loop.sentLen dataLen
    some
      { tsk := (tcpSendPacket { loop.tsk with sndWnd := observed.wnd } payload).tsk,
        sentLen := (loop.sentLen + dataLen).bmod 4294967296,
        reads := loop.reads ++ places loop.sentLen dataLen,
        passed := loop.passed ++ [{ wnd := observed.wnd, payload := payload }] }
  else none

/-- Nothing outside the buffer has been read, every payload has a size that it may have,
and when the loop is over the payloads are the buffer. -/
structure SegmentsExactly (memory : Int → UInt8) (len : Nat) (loop : WriteLoop) : Prop where
  inside : ∀ place ∈ loop.reads, 0 ≤ place ∧ place < len
  sizes : ∀ packet ∈ loop.passed,
    packet.payload ≠ [] ∧ packet.payload.length ≤ min packet.wnd.toNat 1446
  whole : (len : Int) ≤ loop.sentLen →
    (loop.passed.map Passed.payload).flatten = bytesAt memory 0 len

/-- While the sizes have not added up to `len` there is a window, and the next size does
not lead past `len`. -/
def Lands (len : Nat) : Nat → List Observed → Prop
  | _, [] => True
  | sum, observed :: later => sum < len →
      observed.wnd ≠ 0 ∧ sum + min observed.wnd.toNat (min len 1446) ≤ len ∧
        Lands len (sum + min observed.wnd.toNat (min len 1446)) later

section
variable {memory : Int → UInt8} {len sum : Nat} {loop : WriteLoop} {observed : Observed}

@[simp] theorem length_bytesAt (start : Int) (count : Nat) :
    (bytesAt memory start count).length = count := by
  simp [bytesAt, places]

theorem mem_places {start place : Int} {count : Nat} :
    place ∈ places start count ↔ start ≤ place ∧ place < start + count := by
  rw [places, List.mem_map]
  constructor
  · rintro ⟨k, below, rfl⟩
    have small := List.mem_range.mp below
    omega
  · rintro ⟨least, below⟩
    refine ⟨(place - start).toNat, List.mem_range.mpr (by omega), by omega⟩

theorem bytesAt_append (first second : Nat) :
    bytesAt memory 0 first ++ bytesAt memory first second = bytesAt memory 0 (first + second) := by
  simp [bytesAt, places, List.range_add]

structure HasSent (memory : Int → UInt8) (len sum : Nat) (loop : WriteLoop) : Prop where
  le : sum ≤ len
  sentLen : loop.sentLen = sum
  inside : ∀ place ∈ loop.reads, 0 ≤ place ∧ place < len
  sizes : ∀ packet ∈ loop.passed,
    packet.payload ≠ [] ∧ packet.payload.length ≤ min packet.wnd.toNat 1446
  sent : (loop.passed.map Passed.payload).flatten = bytesAt memory 0 sum

theorem hasSent_start (memory : Int → UInt8) (len : Nat) (tsk : TcpSock) :
    HasSent memory len 0 (startWrite tsk) where
  le := Nat.zero_le len
  sentLen := rfl
  inside := by simp [startWrite]
  sizes := by simp [startWrite]
  sent := rfl

theorem HasSent.segmentsExactly (progress : HasSent memory len sum loop) :
    SegmentsExactly memory len loop where
  inside := progress.inside
  sizes := progress.sizes
  whole done := by
    have reached : sum = len := by
      have le := progress.le
      have value := progress.sentLen
      omega
    rw [progress.sent, reached]

theorem HasSent.writeRound (progress : HasSent memory len sum loop) (int : len ≤ 2147483647)
    (more : sum < len) (window : observed.wnd ≠ 0)
    (fits : sum + min observed.wnd.toNat (min len 1446) ≤ len) :
    ∃ next, writeRound memory len loop observed = some next ∧
      HasSent memory len (sum + min observed.wnd.toNat (min len 1446)) next := by
  have positive : observed.wnd.toNat ≠ 0 := by
    intro zero
    exact window (UInt16.toNat_inj.mp zero)
  have value := progress.sentLen
  refine ⟨_, if_pos (by omega), fits, ?_, ?_, ?_, ?_⟩
  · change Int.bmod (loop.sentLen + _) 4294967296 = _
    rw [maxDataLen_eq, value, Int.bmod_eq_of_le] <;> omega
  · intro place member
    rcases List.mem_append.mp member with earlier | now
    · exact progress.inside place earlier
    · rw [maxDataLen_eq, value, mem_places] at now
      omega
  · intro packet member
    rcases List.mem_append.mp member with earlier | now
    · exact progress.sizes packet earlier
    · rw [List.mem_singleton.mp now, ← List.length_pos_iff_ne_nil, length_bytesAt, maxDataLen_eq]
      dsimp only
      omega
  · rw [List.map_append, List.flatten_append, progress.sent, List.map_singleton,
      List.flatten_singleton, maxDataLen_eq, value, bytesAt_append]

/-- A round that ends in a right state has sent a segment that may be sent. -/
theorem HasSent.fits (progress : HasSent memory len sum loop) (more : sum < len) {next : WriteLoop}
    (taken : Tcp.writeRound memory len loop observed = some next)
    (right : SegmentsExactly memory len next) :
    observed.wnd ≠ 0 ∧ sum + min observed.wnd.toNat (min len 1446) ≤ len := by
  have value := progress.sentLen
  rw [Tcp.writeRound, if_pos (by omega)] at taken
  cases Option.some.inj taken
  have size := right.sizes _ (List.mem_append_right _ (List.mem_singleton.mpr rfl))
  rw [← List.length_pos_iff_ne_nil, length_bytesAt, maxDataLen_eq] at size
  constructor
  · intro closed
    rw [closed] at size
    simp at size
  · have last : (sum : Int) + (min observed.wnd.toNat (min len 1446) : Nat) - 1 ∈
        places loop.sentLen (min observed.wnd.toNat (min len maxDataLen)) := by
      rw [maxDataLen_eq, value, mem_places]
      omega
    have bound := right.inside _ (List.mem_append_right _ last)
    omega

theorem HasSent.run_iff (progress : HasSent memory len sum loop) (int : len ≤ 2147483647)
    (rounds : List Observed) :
    Always (Tcp.writeRound memory len) (SegmentsExactly memory len) loop rounds ↔
      Lands len sum rounds := by
  induction rounds generalizing sum loop with
  | nil => exact iff_of_true progress.segmentsExactly trivial
  | cons observed later ih =>
    rw [Always, Lands]
    constructor
    · intro always more
      have taken : ∃ next, Tcp.writeRound memory len loop observed = some next :=
        ⟨_, if_pos (by rw [progress.sentLen]; omega)⟩
      obtain ⟨next, taken⟩ := taken
      have right := always_first _ (always.2 next taken)
      have fits := progress.fits more taken right
      obtain ⟨reached, same, after⟩ := progress.writeRound int more fits.1 fits.2
      cases same.symm.trans taken
      exact ⟨fits.1, fits.2, (ih after).mp (always.2 next taken)⟩
    · intro lands
      refine ⟨progress.segmentsExactly, ?_⟩
      intro next taken
      by_cases more : sum < len
      · have fits := lands more
        obtain ⟨reached, same, after⟩ := progress.writeRound int more fits.1 fits.2.1
        cases same.symm.trans taken
        exact (ih after).mpr fits.2.2
      · rw [Tcp.writeRound, if_neg (by rw [progress.sentLen]; omega)] at taken
        cases taken

end

/-- `tcp_sock_write` cuts the buffer into its segments, whatever the windows are that it
sees, if and only if the sizes land on the length of the buffer. -/
theorem write_segments_exactly (memory : Int → UInt8) (len : Nat) (int : len ≤ 2147483647)
    (tsk : TcpSock) (rounds : List Observed) :
    Always (writeRound memory len) (SegmentsExactly memory len) (startWrite tsk) rounds ↔
      Lands len 0 rounds :=
  (hasSent_start memory len tsk).run_iff int rounds

theorem window_two : (2 : UInt16) = 0 → (2 : UInt16) ≠ 0 := by decide

/-- The window is wide, then it is closed at the test and opens while the writer sleeps. -/
def windowsSeen : List Observed :=
  [⟨2000, 2000, fun shut => absurd shut (by decide)⟩, ⟨0, 4, fun _ => by decide⟩,
    ⟨50, 50, fun shut => absurd shut (by decide)⟩]

theorem write_segments_exactly_rounds :
    Always (writeRound (fun _ => 7) 1500) (SegmentsExactly (fun _ => 7) 1500)
        (startWrite allocTcpSock) windowsSeen ↔ Lands 1500 0 windowsSeen :=
  write_segments_exactly (fun _ => 7) 1500 (by decide) allocTcpSock windowsSeen

/-- While the window is wide enough, a buffer of one segment or of whole segments is right. -/
theorem lands_of_dvd {len : Nat} (whole : min len 1446 ∣ len) (rounds : List Observed)
    (wide : ∀ observed ∈ rounds, observed.wnd ≠ 0 ∧ min len 1446 ≤ observed.wnd.toNat) {sum : Nat}
    (multiple : min len 1446 ∣ sum) : Lands len sum rounds := by
  induction rounds generalizing sum with
  | nil => trivial
  | cons observed later ih =>
    intro more
    have window := wide observed List.mem_cons_self
    rw [Nat.min_eq_right window.2]
    have next : min len 1446 ∣ sum + min len 1446 := Nat.dvd_add multiple (dvd_refl _)
    refine ⟨window.1, ?_, ih (fun other member => wide other (List.mem_cons_of_mem _ member)) next⟩
    have gap : min len 1446 ≤ len - sum :=
      Nat.le_of_dvd (by omega) (Nat.dvd_sub whole multiple)
    omega

/-- Three bytes and a window of two: the second segment reads a fourth byte. -/
theorem second_segment_overruns :
    ¬ ∀ (memory : Int → UInt8) (len : Nat) (tsk : TcpSock) (rounds : List Observed),
      len ≤ 2147483647 →
        Always (writeRound memory len) (SegmentsExactly memory len) (startWrite tsk) rounds := by
  intro exactly
  have twice := exactly (fun _ => 7) 3 allocTcpSock [⟨2, 2, window_two⟩, ⟨2, 2, window_two⟩]
    (by decide)
  have reads : ((run (writeRound (fun _ => 7) 3) (startWrite allocTcpSock)
      [⟨2, 2, window_two⟩, ⟨2, 2, window_two⟩]).map WriteLoop.reads) = some [0, 1, 2, 3] := by
    decide
  obtain ⟨last, success, fourth⟩ := Option.map_eq_some_iff.mp reads
  have inside := (always_last _ _ twice success).inside 3 (by rw [fourth]; decide)
  exact absurd inside.2 (by decide)

end NetworkLab.Tcp
