import MessageBroker.Lib.Stdio
import MessageBroker.Protocol.Packets

/-! The loop of the publisher: its input, one fgets a packet, into the message FIFO. -/

namespace MessageBroker.Publisher

open MessageBroker.Lib MessageBroker.Protocol

structure Sender where
  packet : List UInt8
  stdin : Stream
  -- history: the packets written to the message FIFO
  written : List (List UInt8)

inductive Outcome
  | continues (s : Sender)
  | leaves (s : Sender)
  | panics (message : String)

def sendStep (s : Sender) : Outcome :=
  let (read, packet, stdin) := fgets s.packet (offset messagePacket 1) 1024 s.stdin
  -- the packet just filled is not written any more
  if stdin.eof then .leaves { s with packet := packet, stdin := stdin }
  else if !read then .panics "UNKOWN STDIN ERROR!\n"
  else .continues ⟨packet, stdin, s.written ++ [packet]⟩

def sendLoop : ℕ → Sender → Option Sender
  | 0, _ => none
  | fuel + 1, s =>
    match sendStep s with
    | .continues t => sendLoop fuel t
    | .leaves t => some t
    | .panics _ => none

def entered (memory input : List UInt8) : Sender :=
  ⟨memory.set (offset messagePacket 0) PacketId.sendMsgServer.code, ⟨input, false⟩, []⟩

def messageText (packet : List UInt8) : List UInt8 := readString packet (offset messagePacket 1)

def sentText (s : Sender) : List UInt8 := (s.written.map messageText).flatten

variable {s t : Sender} {memory input : List UInt8} {fuel : ℕ}

structure Running (s : Sender) : Prop where
  packet : s.packet.length = sizeof messagePacket
  ahead : s.stdin.eof = false
  noNul : 0 ∉ s.stdin.rest

lemma sendStep_cases (h : Running s) :
    (∃ t, sendStep s = .leaves t ∧ t.written = s.written ∧
        Cut 1023 s.stdin.rest s.stdin.rest [] true) ∨
      ∃ t line, sendStep s = .continues t ∧ Running t ∧ sentText t = sentText s ++ line ∧
        Cut 1023 s.stdin.rest line t.stdin.rest false ∧ line ≠ [] := by
  rcases fgets_cases h.ahead s.packet (offset messagePacket 1) 1024 with
    ⟨read, packet, hf, hcut⟩ | ⟨line, rest, hf, hcut⟩
  · refine .inl ⟨{ s with packet := packet, stdin := ⟨[], true⟩ }, ?_, rfl, hcut⟩
    simp only [sendStep, hf, if_true]
  · have hnoNul : 0 ∉ line ∧ 0 ∉ rest := by
      have hall := h.noNul
      rw [hcut.append, List.mem_append, not_or] at hall
      exact hall
    have hlen : s.packet.length = 1025 := h.packet
    have hroom : line.length ≤ 1023 := hcut.length_le
    let packet := strcpy s.packet (offset messagePacket 1) line
    have hone : offset messagePacket 1 = 1 := rfl
    have hwhole : packet.length = sizeof messagePacket := by
      have hfits : 1 + (line ++ [0]).length ≤ s.packet.length := by
        rw [List.length_append, List.length_singleton, hlen]
        omega
      exact (writeAt_length hfits).trans h.packet
    have htext : messageText packet = line := readString_strcpy (by rw [hone]; omega) hnoNul.1
    refine .inr ⟨⟨packet, ⟨rest, false⟩, s.written ++ [packet]⟩, line, ?_,
      ⟨hwhole, rfl, hnoNul.2⟩, ?_, hcut, hcut.ne_nil (by decide)⟩
    · simp [sendStep, hf, packet]
    · simp only [sentText, List.map_append, List.flatten_append, List.map_cons, List.map_nil,
        List.flatten_cons, List.flatten_nil, List.append_nil, htext]

lemma sendLoop_sent (h : Running s) (ht : sendLoop fuel s = some t) :
    ∃ sent unsent, s.stdin.rest = sent ++ unsent ∧ sentText t = sentText s ++ sent ∧
      unsent.length = (lastLine s.stdin.rest).length % 1023 := by
  induction fuel generalizing s with
  | zero => cases ht
  | succ fuel ih =>
    rcases sendStep_cases h with ⟨u, hu, hw, hcut⟩ | ⟨u, line, hu, hr, htext, hcut, -⟩
    · simp only [sendLoop, hu] at ht
      cases ht
      obtain ⟨hlast, hlen⟩ := hcut.lastLine_at_end
      refine ⟨[], s.stdin.rest, rfl, ?_, ?_⟩
      · rw [sentText, hw, List.append_nil, sentText]
      · rw [hlast, Nat.mod_eq_of_lt hlen]
    · simp only [sendLoop, hu] at ht
      obtain ⟨sent, unsent, hrest, hsent, hlen⟩ := ih hr ht
      refine ⟨line ++ sent, unsent, ?_, ?_, ?_⟩
      · rw [hcut.append, hrest, List.append_assoc]
      · rw [hsent, htext, List.append_assoc]
      · rw [hlen]
        exact hcut.lastLine_modEq.symm

lemma sendLoop_ends (h : Running s) (hf : s.stdin.rest.length < fuel) :
    ∃ t, sendLoop fuel s = some t := by
  induction fuel generalizing s with
  | zero => cases hf
  | succ fuel ih =>
    rcases sendStep_cases h with ⟨u, hu, -⟩ | ⟨u, line, hu, hr, -, hcut, hne⟩
    · exact ⟨u, by rw [sendLoop, hu]⟩
    · have hpos := List.length_pos_iff.mpr hne
      have hlen := congrArg List.length hcut.append
      rw [List.length_append] at hlen
      obtain ⟨t, ht⟩ := ih hr (by omega)
      exact ⟨t, by rw [sendLoop, hu]; exact ht⟩

theorem all_input_sent_iff (hm : memory.length = sizeof messagePacket) (hn : 0 ∉ input) :
    (∃ fuel t, sendLoop fuel (entered memory input) = some t) ∧
      ∀ fuel t, sendLoop fuel (entered memory input) = some t →
        (sentText t = input ↔ 1023 ∣ (lastLine input).length) := by
  have hr : Running (entered memory input) := ⟨(List.length_set).trans hm, rfl, hn⟩
  refine ⟨⟨input.length + 1, sendLoop_ends hr (Nat.lt_succ_self _)⟩, ?_⟩
  intro fuel t ht
  obtain ⟨sent, unsent, hrest, htext, hlen⟩ := sendLoop_sent hr ht
  replace hrest : input = sent ++ unsent := hrest
  replace htext : sentText t = sent := htext
  replace hlen : unsent.length = (lastLine input).length % 1023 := hlen
  rw [htext, Nat.dvd_iff_mod_eq_zero, ← hlen, List.length_eq_zero_iff]
  constructor
  · intro he
    have hnil := hrest.symm.trans he.symm
    simpa using hnil
  · rintro rfl
    rw [hrest, List.append_nil]

theorem all_input_sent_iff_lines :
    (∃ fuel t, sendLoop fuel (entered (List.replicate 1025 7) [97, 98, 10, 99, 10]) = some t) ∧
      ∀ fuel t, sendLoop fuel (entered (List.replicate 1025 7) [97, 98, 10, 99, 10]) = some t →
        (sentText t = [97, 98, 10, 99, 10] ↔ 1023 ∣ (lastLine [97, 98, 10, 99, 10]).length) :=
  all_input_sent_iff (List.length_replicate) (by decide)

theorem last_line_unsent : ∃ t,
    sendLoop 2 (entered (List.replicate 1025 7) [97, 98, 10, 99]) = some t ∧
      sentText t = [97, 98, 10] ∧ sentText t ≠ [97, 98, 10, 99] := by
  have hrun : (sendLoop 2 (entered (List.replicate 1025 7) [97, 98, 10, 99])).map sentText =
      some [97, 98, 10] := by
    decide +kernel
  obtain ⟨t, ht, htext⟩ := Option.map_eq_some_iff.mp hrun
  exact ⟨t, ht, htext, by rw [htext]; decide⟩

end MessageBroker.Publisher
