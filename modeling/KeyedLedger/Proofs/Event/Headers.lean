import Mathlib.Data.List.Basic
import KeyedLedger.Event.Envelope
import KeyedLedger.Proofs.Time.Reading

/-! # Events come back from their messages

The type and the metadata of an event travel in the headers of a message. Reading takes the first
header with the type and the last one of each field of the metadata; since an event writes each of
its headers once, both rules find what was written, whatever headers others have put in between.
-/

namespace KeyedLedger

namespace Metadata

/-- A header with another name says nothing. -/
theorem withHeader_of_ne (m : Metadata) {header : String × String}
    (hkey : header.1 ≠ "idempotency-key") (hid : header.1 ≠ "request-id")
    (htype : header.1 ≠ "request-type") (htime : header.1 ≠ "timestamp") :
    m.withHeader header = m := by
  rcases header with ⟨name, value⟩
  unfold withHeader
  split <;> simp_all

/-- The time can be written without a sign. -/
def Unsigned (m : Metadata) : Prop :=
  ∀ t, m.timestamp = some t → 0 ≤ t.date.year ∧ t.date.year ≤ 9999

theorem foldl_toHeaders {m : Metadata} (h : m.Unsigned) :
    m.toHeaders.foldl withHeader {} = m := by
  rcases m with ⟨key, requestId, requestType, timestamp⟩
  have htime : ∀ before : Metadata, before.timestamp = none →
      ((timestamp.map fun t => ("timestamp", t.toOffsetString)).toList).foldl withHeader before =
        { before with timestamp := timestamp } := by
    intro before hnone
    cases timestamp with
    | none => cases before; cases hnone; rfl
    | some t =>
        have hread := Timestamp.readStrict?_toOffsetString (h t rfl)
        simp [withHeader, hread]
  rw [toHeaders, List.foldl_append, htime]
  · cases key <;> cases requestId <;> cases requestType <;> rfl
  · cases key <;> cases requestId <;> cases requestType <;> rfl

end Metadata

namespace Event

/-- The names of the headers that are read. -/
def headerNames : List String :=
  ["event-type", "idempotency-key", "request-id", "request-type", "timestamp"]

/-- Headers are those of an event, in their order, and between them any with other names. -/
def CarriedBy (e : Event) (headers : List (String × String)) : Prop :=
  headers.filter (fun header => header.1 ∈ headerNames) = e.toHeaders

theorem lookup_filter (headers : List (String × String)) {name : String}
    (hname : name ∈ headerNames) :
    (headers.filter fun header => header.1 ∈ headerNames).lookup name = headers.lookup name := by
  induction headers with
  | nil => rfl
  | cons header rest ih =>
      rcases header with ⟨other, value⟩
      rw [List.filter_cons]
      by_cases hother : other ∈ headerNames
      · rw [if_pos (by simpa using hother), List.lookup_cons, List.lookup_cons, ih]
      · have hne : (name == other) = false := by
          rw [beq_eq_false_iff_ne]
          exact fun hsame => hother (hsame ▸ hname)
        rw [if_neg (by simpa using hother), List.lookup_cons, hne, ih]

theorem ofHeaders_filter (headers : List (String × String)) :
    Metadata.ofHeaders (headers.filter fun header => header.1 ∈ headerNames) =
      Metadata.ofHeaders headers := by
  rw [Metadata.ofHeaders, List.foldl_filter]
  refine List.foldl_ext _ _ _ fun m header _ => ?_
  split
  next => rfl
  next hforeign =>
    simp only [headerNames, List.mem_cons, List.not_mem_nil, or_false, decide_eq_true_eq,
      not_or] at hforeign
    obtain ⟨-, hkey, hid, htype, htime⟩ := hforeign
    exact (m.withHeader_of_ne hkey hid htype htime).symm

/-- The headers of an event give it back, whatever headers others have put in between. -/
theorem CarriedBy.ofMessage {e : Event} {headers : List (String × String)}
    (h : e.CarriedBy headers) (htime : e.metadata.Unsigned) :
    Event.ofMessage (some e.body) headers = .ok e := by
  have htype : headers.lookup "event-type" = some e.eventType := by
    rw [← lookup_filter headers (by simp [headerNames]), h, toHeaders, List.lookup_cons]
    rfl
  have hmetadata : Metadata.ofHeaders headers = e.metadata := by
    rw [← ofHeaders_filter, h, toHeaders, Metadata.ofHeaders, List.foldl_cons]
    exact Metadata.foldl_toHeaders htime
  simp only [Event.ofMessage, htype, hmetadata]

/-- An event comes back from a message with its body and its headers, its correlation key with it;
what lacks a body or a type is no event. -/
theorem ofMessage_toHeaders :
    (∀ (e : Event) (headers : List (String × String)), e.metadata.Unsigned →
      e.CarriedBy headers → ofMessage (some e.body) headers = .ok e ∧
        (ofMessage (some e.body) headers).map (fun e => e.metadata.correlationKey?) =
          .ok e.metadata.correlationKey?) ∧
      ∀ (payload : Option ByteArray) (headers : List (String × String)),
        payload = none ∨ (∀ header ∈ headers, header.1 ≠ "event-type") →
          ∃ error, ofMessage payload headers = .error error := by
  refine ⟨fun e headers htime h => ?_, fun payload headers h => ?_⟩
  · rw [h.ofMessage htime]
    exact ⟨rfl, rfl⟩
  · rcases h with rfl | hnone
    · exact ⟨_, rfl⟩
    · have hlookup : headers.lookup "event-type" = none := by
        rw [List.lookup_eq_none_iff]
        intro header hheader
        simpa using (hnone header hheader).symm
      cases payload with
      | none => exact ⟨_, rfl⟩
      | some body =>
          simp only [ofMessage, hlookup]
          exact ⟨_, rfl⟩

end Event

namespace Sample

/-- The news of a leap second, with an empty request id and no request type. -/
def leapEvent : Event :=
  ⟨"Leap.v1", "null".toUTF8, ⟨some "key", some "", none, some leapSecond⟩⟩

/-- Its headers, with two of others in between. -/
def leapHeaders : List (String × String) :=
  [("trace", "a"), ("event-type", "Leap.v1"), ("idempotency-key", "key"), ("trace", "b"),
    ("request-id", ""), ("timestamp", "2016-12-31T23:59:60.000000001+00:00")]

theorem ofMessage_toHeaders_leap :
    (Event.ofMessage (some leapEvent.body) leapHeaders = .ok leapEvent ∧
      (Event.ofMessage (some leapEvent.body) leapHeaders).map
        (fun e => e.metadata.correlationKey?) = .ok (some "key")) ∧
      ∃ error, Event.ofMessage (some leapEvent.body) [("trace", "a")] = .error error := by
  refine ⟨Event.ofMessage_toHeaders.1 leapEvent leapHeaders ?_ (by rfl),
    Event.ofMessage_toHeaders.2 _ _ (Or.inr (by simp))⟩
  rintro t ⟨⟩
  decide

end Sample

end KeyedLedger
