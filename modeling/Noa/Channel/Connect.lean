import Noa.Channel.Message

namespace Noa.Channel
open Noa.Framework

/-- `read_exact` on the bytes a stream still delivers before its end. -/
def readExact (n : Nat) (r : Bytes) : Except ChannelError (Bytes × Bytes) :=
  if r.length < n then .error (.io "early eof") else .ok (r.take n, r.drop n)

/-- Read one frame: the fixed section, then as many bytes as it announces. -/
def readMessage (r : Bytes) : Except ChannelError (Message × Bytes) := do
  let (sec, r) ← readExact dataSectionV2 r
  let (hlen, blen) ← frameLengths sec
  let (rest, r) ← readExact (hlen.toNat + blen.toNat) r
  let msg ← parseFrame (sec ++ rest)
  return (msg, r)

/-- `n` successive calls on the same stream. -/
def readMessages : Nat → Bytes → Except ChannelError (List Message × Bytes)
  | 0, r => .ok ([], r)
  | n + 1, r => do
    let (m, r) ← readMessage r
    let (ms, r) ← readMessages n r
    return (m :: ms, r)

theorem readExact_append (a b : Bytes) : readExact a.length (a ++ b) = .ok (a, b) := by
  simp [readExact]

/-- The prefix tells exactly where a frame within the cap ends. -/
theorem readMessage_frame (m : Message) (h : m.dataLen ≤ 2 ^ 20) (rest : Bytes) :
    readMessage (m.frame ++ rest) = .ok (m, rest) := by
  let hl := UInt32.ofNat (headerSection m.headers).length
  let bl := UInt32.ofNat m.body.length
  let pre := framePrefix m.contentType m.sequence hl bl
  let data := headerSection m.headers ++ m.body
  have hd : data.length = m.dataLen := by simp [data, Message.dataLen]
  have hnat : hl.toNat + bl.toNat = data.length := by
    unfold Message.dataLen at h
    rw [hd, Message.dataLen, UInt32.toNat_ofNat', UInt32.toNat_ofNat', Nat.mod_eq_of_lt (by omega),
      Nat.mod_eq_of_lt (by omega)]
  have hframe : m.frame = pre ++ data := by simp [Message.frame, pre, data, hl, bl]
  have hsec : readExact dataSectionV2 (m.frame ++ rest) = .ok (pre, data ++ rest) := by
    have hp : dataSectionV2 = pre.length := by simp [pre, dataSectionV2]
    rw [hframe, List.append_assoc, hp, readExact_append]
  have hcap : ¬ maxDataSection < saturatingAdd hl bl := by
    rw [saturatingAdd_le_cap, hnat, hd]
    exact h
  have hlens : frameLengths pre = .ok (hl, bl) := by
    have := frameLengths_framePrefix m.contentType m.sequence hl bl []
    rwa [List.append_nil, if_neg hcap] at this
  have hparse : parseFrame (pre ++ data) = .ok m := by
    have := parseFrame_frame m h []
    rwa [List.append_nil, hframe] at this
  simp only [readMessage, hsec, hlens, hnat, readExact_append, hparse, bind, Except.bind, pure,
    Except.pure]

theorem readMessages_frames (ms : List Message) (h : ∀ m ∈ ms, m.dataLen ≤ 2 ^ 20)
    (rest : Bytes) :
    readMessages ms.length (ms.flatMap Message.frame ++ rest) = .ok (ms, rest) := by
  induction ms with
  | nil => rfl
  | cons m ms ih =>
    have hm := readMessage_frame m (h m (by simp)) (ms.flatMap Message.frame ++ rest)
    have ht := ih (fun x hx => h x (by simp [hx]))
    simp only [List.length_cons, readMessages, List.flatMap_cons, List.append_assoc, hm, ht, bind,
      Except.bind, pure, Except.pure]

theorem mapM_marshalV2 (ms : List Message) (h : ∀ m ∈ ms, m.dataLen ≤ 2 ^ 20) :
    ms.mapM Message.marshalV2 = some (ms.map Message.frame) := by
  induction ms with
  | nil => rfl
  | cons m ms ih =>
    have hm := h m (by simp)
    unfold Message.dataLen at hm
    have ht := ih (fun x hx => h x (by simp [hx]))
    rw [List.mapM_cons, marshalV2_eq m (by omega) (by omega), ht]
    rfl

/-- Marshalling and parsing are inverse exactly up to the cap, and a stream of
marshalled frames is read back frame by frame to its last byte. -/
theorem marshalV2_roundtrip :
    (∀ m : Message, (headerSection m.headers).length < 2 ^ 32 → m.body.length < 2 ^ 32 →
      ∃ bytes, m.marshalV2 = some bytes ∧
        (parseFrame bytes = .ok m ↔ (headerSection m.headers).length + m.body.length ≤ 2 ^ 20) ∧
        (¬ (headerSection m.headers).length + m.body.length ≤ 2 ^ 20 →
          ∃ e, parseFrame bytes = .error e)) ∧
    (∀ ms : List Message,
      (∀ m ∈ ms, (headerSection m.headers).length + m.body.length ≤ 2 ^ 20) →
      ∃ frames, ms.mapM Message.marshalV2 = some frames ∧
        readMessages ms.length frames.flatten = .ok (ms, [])) := by
  refine ⟨?_, ?_⟩
  · intro m hh hb
    have hbig (hc : ¬ m.dataLen ≤ 2 ^ 20) : ∃ e, parseFrame m.frame = .error e := by
      obtain ⟨reason, he⟩ := parseFrame_oversized m hh hb (by omega) []
      exact ⟨_, by simpa only [List.append_nil] using he⟩
    refine ⟨m.frame, marshalV2_eq m hh hb, ⟨?_, ?_⟩, hbig⟩
    · intro hok
      by_contra hc
      obtain ⟨e, he⟩ := hbig hc
      rw [he] at hok
      cases hok
    · intro hc
      simpa only [List.append_nil] using parseFrame_frame m hc []
  · intro ms h
    refine ⟨ms.map Message.frame, mapM_marshalV2 ms h, ?_⟩
    have := readMessages_frames ms h []
    rwa [List.append_nil, List.flatMap_def] at this

/-- A message with one header and a two-byte body makes the round trip. -/
theorem marshalV2_roundtrip_hello :
    ∃ bytes, (Message.mk 0 (-1) ((∅ : Headers).insert 1002 [7]) [1, 2]).marshalV2 = some bytes ∧
      parseFrame bytes = .ok (Message.mk 0 (-1) ((∅ : Headers).insert 1002 [7]) [1, 2]) := by
  let m := Message.mk 0 (-1) ((∅ : Headers).insert 1002 [7]) [1, 2]
  have hs : (headerSection m.headers).length = 9 := by decide
  obtain ⟨bytes, hm, hp, -⟩ := marshalV2_roundtrip.1 m (by omega) (by decide)
  exact ⟨bytes, hm, hp.mpr (by rw [hs]; decide)⟩

end Noa.Channel
