import Noa.Framework.Await
import Noa.Tunnel.Intercept.ProxyResolve.Delivery

namespace Noa.Tunnel.Intercept.DnsTcp
open Noa.Framework Noa.Channel Noa.Tunnel.Resolve ProxyResolve

/-- What a read of the overlay connection returns. -/
inductive ConnRead where
  | chunk (data : Bytes)
  | eof
  | failed

section Completion

variable (fromSlice : Bytes → Option WireMsg) (q : ProxyQuery) (packet : Bytes)
  (recursionAvailable : Bool)

/-- What a read under the timeout does to the wait: a chunk that is malformed or has another identifier
is dropped, and what is no chunk ends it without a response. -/
def completeRead : Option ConnRead → Option (Except Unit (Option Bytes))
  | some (.chunk chunk) =>
    match parsePeerResponse fromSlice chunk with
    | some resp =>
      if resp.id = q.id then
        some (.ok (some
          (formatRespAnswers packet q.nameStrlen dnsNoError resp.answers 0 recursionAvailable)))
      else none
    | none => none
  | some .eof | some .failed | none => some (.error ())

/-- The completion of one query over a connection of its own, with the time it returns. The write call
returns at `start`, and the fuel bounds the number of reads. -/
def completeProxyOverConn (timeout : Nat) (written : Bool) (reads : Arrivals ConnRead)
    (fuel start : Nat) : Option (Except Unit (Option Bytes) × Nat) :=
  if written then
    awaitEach (completeRead fromSlice q packet recursionAvailable) timeout reads fuel 0 start
  else some (.ok none, start)

end Completion

section Bound

variable {fromSlice : Bytes → Option WireMsg} {q : ProxyQuery} {packet : Bytes}
  {recursionAvailable : Bool}

/-- The chunk is a response to the query. -/
def Completes (fromSlice : Bytes → Option WireMsg) (q : ProxyQuery) (chunk : Bytes) : Prop :=
  ∃ resp, parsePeerResponse fromSlice chunk = some resp ∧ resp.id = q.id

theorem completeRead_eq_none {e : ConnRead} :
    completeRead fromSlice q packet recursionAvailable (some e) = none ↔
      ∃ chunk, e = .chunk chunk ∧ ¬ Completes fromSlice q chunk := by
  cases e with
  | chunk chunk =>
    cases hresp : parsePeerResponse fromSlice chunk <;> simp [completeRead, Completes, hresp]
  | eof | failed => simp [completeRead]

theorem completeRead_response {read : Option ConnRead} {response : Bytes}
    (h : completeRead fromSlice q packet recursionAvailable read = some (.ok (some response))) :
    ∃ chunk resp, read = some (.chunk chunk) ∧ parsePeerResponse fromSlice chunk = some resp ∧
      resp.id = q.id ∧
      response = formatRespAnswers packet q.nameStrlen dnsNoError resp.answers 0 recursionAvailable := by
  unfold completeRead at h
  split at h
  next chunk =>
    split at h
    next resp hresp =>
      split_ifs at h with hid
      cases h
      exact ⟨chunk, resp, rfl, hresp, hid, rfl⟩
    next => cases h
  all_goals cases h

end Bound

/-- Once the request is written, the wait is over within the timeout if and only if a chunk that comes
in the meantime and does not complete the query is made up for by the completing chunk, the end or an
error of the connection within the timeout. A response is that of a chunk that completes the query. -/
theorem proxy_wait_bounded (fromSlice : Bytes → Option WireMsg) (q : ProxyQuery) (packet : Bytes)
    (recursionAvailable : Bool) (timeout : Nat) (reads : Arrivals ConnRead) (start : Nat) :
    ((∃ fuel out t, completeProxyOverConn fromSlice q packet recursionAvailable timeout true reads fuel
          start = some (out, t) ∧ t ≤ start + timeout) ↔
      ((∃ i t chunk, reads.get i = some (t, .chunk chunk) ∧ ¬ Completes fromSlice q chunk ∧ start < t ∧
          t ≤ start + timeout) →
        ∃ i t e, reads.get i = some (t, e) ∧ t ≤ start + timeout ∧
          ∀ chunk, e = .chunk chunk → Completes fromSlice q chunk)) ∧
    ∀ fuel response t, completeProxyOverConn fromSlice q packet recursionAvailable timeout true reads
        fuel start = some (.ok (some response), t) →
      ∃ i t' chunk resp, reads.get i = some (t', .chunk chunk) ∧
        parsePeerResponse fromSlice chunk = some resp ∧ resp.id = q.id ∧
        response =
          formatRespAnswers packet q.nameStrlen dnsNoError resp.answers 0 recursionAvailable := by
  simp only [completeProxyOverConn, if_true]
  have htimeout : completeRead fromSlice q packet recursionAvailable none = some (.error ()) := rfl
  constructor
  · rw [awaitEach_within_iff htimeout]
    refine imp_congr ?_ ?_
    · constructor
      · rintro ⟨i, t, e, hget, hnone, ht⟩
        obtain ⟨chunk, rfl, hchunk⟩ := completeRead_eq_none.mp hnone
        exact ⟨i, t, chunk, hget, hchunk, ht⟩
      · rintro ⟨i, t, chunk, hget, hchunk, ht⟩
        exact ⟨i, t, .chunk chunk, hget, completeRead_eq_none.mpr ⟨chunk, rfl, hchunk⟩, ht⟩
    · refine exists_congr fun i => exists_congr fun t => exists_congr fun e => ?_
      have hsettles : (∃ r, completeRead fromSlice q packet recursionAvailable (some e) = some r) ↔
          ∀ chunk, e = .chunk chunk → Completes fromSlice q chunk := by
        rw [← Option.ne_none_iff_exists', Ne, completeRead_eq_none]
        push Not
        rfl
      rw [← hsettles]
      exact ⟨fun ⟨r, hget, hr, ht⟩ => ⟨hget, ht, r, hr⟩, fun ⟨hget, ht, r, hr⟩ => ⟨r, hget, hr, ht⟩⟩
  · intro fuel response t hrun
    rcases awaitEach_settled hrun with hnone | ⟨i, t', e, hget, hsettle⟩
    · obtain ⟨chunk, resp, hread, -⟩ := completeRead_response hnone
      cases hread
    · obtain ⟨chunk, resp, hread, hresp, hid, heq⟩ := completeRead_response hsettle
      cases hread
      exact ⟨i, t', chunk, resp, hget, hresp, hid, heq⟩

/-- A peer that sends a response to another query every four seconds. -/
def trickle : Arrivals ConnRead where
  get i := some (4000000000 * (i + 1), .chunk txtChunk)
  ordered i t e h := ⟨4000000000 * (i + 1), .chunk txtChunk, rfl, by
    obtain ⟨rfl, -⟩ := Prod.mk.inj (Option.some.inj h)
    omega⟩
  finite t := ⟨t, fun t' e h => by
    obtain ⟨rfl, -⟩ := Prod.mk.inj (Option.some.inj h)
    omega⟩

theorem wait_for_trickle_unbounded :
    (parsePeerResponse readTxt txtChunk).map (·.id) = some 8 ∧
      ∀ fuel, completeProxyOverConn readTxt ⟨"a.test".toList, 7, 6, []⟩ [] false proxyPendingTimeout true
        trickle fuel 0 = none := by
  have hdrops : completeRead readTxt ⟨"a.test".toList, 7, 6, []⟩ [] false (some (.chunk txtChunk)) =
      none := by
    decide +kernel
  have hgoesOn (fuel : Nat) : ∀ i, awaitEach
      (completeRead readTxt ⟨"a.test".toList, 7, 6, []⟩ [] false) proxyPendingTimeout trickle fuel i
      (4000000000 * i) = none := by
    induction fuel with
    | zero => exact fun _ => rfl
    | succ fuel ih =>
      intro i
      have hread : readTimeout proxyPendingTimeout (4000000000 * i) (trickle.get i) =
          (4000000000 * (i + 1), some (.chunk txtChunk)) := by
        rw [trickle, readTimeout_arrived (by unfold proxyPendingTimeout; omega),
          Nat.max_eq_right (by omega)]
      rw [awaitEach, hread]
      simp only [hdrops]
      exact ih (i + 1)
  exact ⟨by decide +kernel, fun fuel => hgoesOn fuel 0⟩

end Noa.Tunnel.Intercept.DnsTcp
