import KeyedLedger.Feed
import KeyedLedger.Proofs.Json.Locality
import KeyedLedger.Proofs.Json.Tagged

/-! # What the text of a client asks for

A client may write what it asks for in two ways (`ClientMessage.Written`). In an object the kind of
the message is its only `type`, and where topics are asked for they are its only `topics`; there may
be other members as long as the whole is JSON. In an array the kind comes first, and the topics
next. A text that is written so is understood, and no other is (`Frame.asks?_text`); what the
message itself is written as is one of them (`Frame.asks?_render`).
-/

namespace KeyedLedger

open Document (Node valuesOf)

/-- What a frame asks for. -/
def Frame.asks? : Frame → Option ClientMessage
  | text s => (ClientMessage.decoder.ofString s).toOption
  | binary => none
  | close => none

namespace ClientMessage

/-- The name of the kind of a message. -/
def kind : ClientMessage → String
  | subscribe _ => "subscribe"
  | unsubscribe _ => "unsubscribe"
  | ping => "ping"

/-- The topics that a message lists. -/
def listed? : ClientMessage → Option (List String)
  | subscribe topics => some topics
  | unsubscribe topics => some topics
  | ping => none

/-- A list of topics as a client writes it. -/
def listing (topics : List String) : Node :=
  Document.ofJson (.array (topics.map .string))

/-- How a client may write a message. -/
inductive Written (m : ClientMessage) : Node → Prop
  /-- As an object. -/
  | object {members : List (Option String × Node)}
      (hsound : ((Node.object members true).toJson? Document.maxDepth).isSome = true)
      (htype : valuesOf "type" members = [.string (some m.kind)])
      (htopics : ∀ topics, m.listed? = some topics →
        valuesOf "topics" members = [listing topics]) : Written m (.object members true)
  /-- As an array. -/
  | array : Written m (.array (.string (some m.kind) :: (m.listed?.map listing).toList) true)

/-! ## Each kind of message -/

variable {m : ClientMessage} {members : List (Option String × Node)} {name : String}

theorem listing_object_iff {g : List String → ClientMessage} (h : Shape.Sound members) :
    (g <$> Shape.field "topics" (.list .string)).decoder (.object members true) = .ok m ↔
      ∃ topics, valuesOf "topics" members = [listing topics] ∧ g topics = m := by
  rw [Shape.decoder_map]
  constructor
  · intro hread
    obtain ⟨topics, htopics, hsame⟩ := map_ok hread
    obtain ⟨node, hvalues, hnode⟩ := (Shape.field_object_iff h).mp htopics
    exact ⟨topics, by rw [hvalues, Decoder.list_string_ok_iff.mp hnode, listing], hsame⟩
  · rintro ⟨topics, hvalues, rfl⟩
    rw [(Shape.field_object_iff h).mpr ⟨_, hvalues, Decoder.list_string_ok_iff.mpr rfl⟩]
    rfl

theorem listing_array_iff {g : List String → ClientMessage} {nodes : List Node} :
    (g <$> Shape.field "topics" (.list .string)).decoder (.array nodes true) = .ok m ↔
      ∃ topics, nodes = [listing topics] ∧ g topics = m := by
  rw [Shape.decoder_map]
  constructor
  · intro hread
    obtain ⟨topics, htopics, hsame⟩ := map_ok hread
    obtain ⟨node, hnodes, hnode⟩ := Shape.field_array_iff.mp htopics
    exact ⟨topics, by rw [hnodes, Decoder.list_string_ok_iff.mp hnode, listing], hsame⟩
  · rintro ⟨topics, hnodes, rfl⟩
    rw [Shape.field_array_iff.mpr ⟨_, hnodes, Decoder.list_string_ok_iff.mpr rfl⟩]
    rfl

/-- Behind the name of its kind a message lists its topics, if it is of a kind that does. -/
theorem variant?_object_iff (h : Shape.Sound members) :
    (∃ d, variant? name = some d ∧ d (.object members true) = .ok m) ↔
      name = m.kind ∧ ∀ topics, m.listed? = some topics →
        valuesOf "topics" members = [listing topics] := by
  constructor
  · rintro ⟨d, hd, hread⟩
    unfold variant? at hd
    split at hd <;> cases hd
    · obtain ⟨topics, hvalues, rfl⟩ := (listing_object_iff h).mp hread
      exact ⟨rfl, fun _ hlisted => Option.some.inj hlisted ▸ hvalues⟩
    · obtain ⟨topics, hvalues, rfl⟩ := (listing_object_iff h).mp hread
      exact ⟨rfl, fun _ hlisted => Option.some.inj hlisted ▸ hvalues⟩
    · obtain rfl := (Shape.empty_object_iff h).mp hread
      exact ⟨rfl, nofun⟩
  · rintro ⟨rfl, hlisted⟩
    cases m with
    | subscribe topics =>
        exact ⟨_, rfl, (listing_object_iff h).mpr ⟨topics, hlisted topics rfl, rfl⟩⟩
    | unsubscribe topics =>
        exact ⟨_, rfl, (listing_object_iff h).mpr ⟨topics, hlisted topics rfl, rfl⟩⟩
    | ping => exact ⟨_, rfl, (Shape.empty_object_iff h).mpr rfl⟩

theorem variant?_array_iff {nodes : List Node} :
    (∃ d, variant? name = some d ∧ d (.array nodes true) = .ok m) ↔
      name = m.kind ∧ nodes = (m.listed?.map listing).toList := by
  constructor
  · rintro ⟨d, hd, hread⟩
    unfold variant? at hd
    split at hd <;> cases hd
    · obtain ⟨topics, rfl, rfl⟩ := listing_array_iff.mp hread
      exact ⟨rfl, rfl⟩
    · obtain ⟨topics, rfl, rfl⟩ := listing_array_iff.mp hread
      exact ⟨rfl, rfl⟩
    · obtain ⟨rfl, rfl⟩ := Shape.empty_array_iff.mp hread
      exact ⟨rfl, rfl⟩
  · rintro ⟨rfl, rfl⟩
    cases m with
    | subscribe topics => exact ⟨_, rfl, listing_array_iff.mpr ⟨topics, rfl, rfl⟩⟩
    | unsubscribe topics => exact ⟨_, rfl, listing_array_iff.mpr ⟨topics, rfl, rfl⟩⟩
    | ping => exact ⟨_, rfl, Shape.empty_array_iff.mpr ⟨rfl, rfl⟩⟩

/-! ## What is understood -/

theorem itemsToJson?_strings (depth : Nat) (ss : List String) :
    Node.itemsToJson? depth (Document.ofItems (ss.map .string)) = some (ss.map .string) := by
  induction ss with
  | nil => rfl
  | cons s ss ih =>
      rw [List.map_cons, Document.ofItems, Document.ofJson, Node.itemsToJson?, ih, Node.toJson?]
      rfl

/-- A list of topics is JSON, however close to the limit it is nested. -/
theorem toJson?_listing (depth : Nat) (topics : List String) :
    (listing topics).toJson? (depth + 1) = some (.array (topics.map .string)) := by
  rw [listing, Document.ofJson, Node.toJson?, if_neg (by simp), Nat.add_sub_cancel,
    itemsToJson?_strings, Option.map_some]

theorem decoder_ok_iff {node : Node} : decoder node = .ok m ↔ m.Written node := by
  constructor
  · intro h
    rcases Shape.tagged_closed h with ⟨members, rfl⟩ | ⟨nodes, rfl⟩
    · obtain ⟨hsound, name, d, htype, hd, hread⟩ := Shape.tagged_object_iff.mp h
      obtain ⟨rfl, htopics⟩ :=
        (variant?_object_iff ((Shape.Sound.of_toJson? hsound).filter _)).mp ⟨d, hd, hread⟩
      simp only [Document.valuesOf_filter (show "topics" ≠ "type" by decide)] at htopics
      exact .object hsound htype htopics
    · obtain ⟨-, name, d, rest, rfl, hd, hread⟩ := Shape.tagged_array_iff.mp h
      obtain ⟨rfl, rfl⟩ := variant?_array_iff.mp ⟨d, hd, hread⟩
      exact .array
  · rintro (⟨hsound, htype, htopics⟩ | _)
    · have hrest := (Shape.Sound.of_toJson? hsound).filter fun m => m.1 != some "type"
      obtain ⟨d, hd, hread⟩ := (variant?_object_iff hrest).mpr ⟨rfl, fun topics hlisted =>
        (Document.valuesOf_filter (by decide)).trans (htopics topics hlisted)⟩
      exact Shape.tagged_object_iff.mpr ⟨hsound, _, d, htype, hd, hread⟩
    · obtain ⟨d, hd, hread⟩ := variant?_array_iff.mpr ⟨rfl, rfl⟩
      refine Shape.tagged_array_iff.mpr ⟨?_, _, d, _, rfl, hd, hread⟩
      cases m <;> simp [kind, listed?, Node.toJson?, Node.itemsToJson?, toJson?_listing]

/-- A message is written as itself. -/
theorem written_toJson (m : ClientMessage) : m.Written (Document.ofJson m.toJson) := by
  cases m with
  | subscribe topics | unsubscribe topics =>
      refine .object ?_ rfl fun _ hlisted => ?_
      · simp [Document.ofJson, Document.ofMembers, Node.toJson?, Node.membersToJson?,
          itemsToJson?_strings]
      · cases hlisted
        rfl
  | ping => exact .object rfl rfl fun _ hlisted => absurd hlisted (Option.some_ne_none _).symm

theorem whole_toJson (m : ClientMessage) : m.toJson.Whole := by
  cases m <;> simp [toJson]

end ClientMessage

/-- A text asks for something if it is that of a value in which a message is written. -/
theorem Frame.asks?_text {s : String} {m : ClientMessage} : (text s).asks? = some m ↔
    ∃ node, Document.Spells (Document.spelled s.toList) node ∧ m.Written node := by
  have hread : (text s).asks? = some m ↔
      (Document.ofString s).ended = true ∧ m.Written (Document.ofString s).root := by
    rw [asks?, Decoder.ofString, Document.decode, ← ClientMessage.decoder_ok_iff]
    cases ClientMessage.decoder (Document.ofString s).root with
    | error fault => simp [Except.toOption, bind, Except.bind]
    | ok found =>
        cases (Document.ofString s).ended <;>
          simp [Except.toOption, bind, Except.bind, pure, Except.pure]
  rw [hread]
  constructor
  · rintro ⟨hended, hwritten⟩
    exact ⟨_, congrArg (Document.mk _) hended, hwritten⟩
  · rintro ⟨node, hspells, hwritten⟩
    have hdocument : Document.ofString s = ⟨node, true⟩ := hspells
    rw [hdocument]
    exact ⟨rfl, hwritten⟩

example : (Frame.text "\x7b \"type\": \"unsubscribe\", \"topics\": [\"/topic/accounts\"] \x7d"
    ).asks? = some (.unsubscribe ["/topic/accounts"]) := by
  cbv

/-- A message is understood from the text that it is written as. -/
theorem Frame.asks?_render (m : ClientMessage) : (text m.toJson.render).asks? = some m := by
  have hspells := Document.ofBytes_render m.whole_toJson
  rw [Document.ofBytes, Document.symbols_toUTF8] at hspells
  exact asks?_text.mpr ⟨_, hspells, m.written_toJson⟩

/-! ## What a client can tell -/

theorem strings_injective {first second : List String}
    (h : first.map Json.string = second.map Json.string) : first = second :=
  List.map_injective_iff.mpr (fun _ _ => Json.string.inj) h

/-- No two messages to a client are written in the same way. -/
theorem ServerMessage.eq_of_toJson_eq {m m' : ServerMessage} (h : m.toJson = m'.toJson) :
    m = m' := by
  cases m <;> cases m' <;> simp only [toJson, Json.object.injEq, List.cons.injEq, Prod.mk.injEq,
    Json.string.injEq, Json.array.injEq] at h
  case subscribed.subscribed topics topics' => rw [strings_injective h.2.1.2]
  case event.event => rw [h.2.1.2, h.2.2.1.2]
  case pong.pong => rfl
  all_goals simp at h

end KeyedLedger
