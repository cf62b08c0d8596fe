import KeyedLedger.Proofs.Decimal.Exactness
import KeyedLedger.Proofs.Json.Place
import KeyedLedger.Service.Request

/-! # Amounts, as numbers or as strings

The amount of a transaction is written as a number or as a string of the same characters, and it is
the same amount: the record is read alike from both texts, or refused alike. No digit is lost on
the way through a binary fraction. An amount without an exponent that a decimal can hold is never
the reason why a record is refused, and it is read as exactly its number.
-/

namespace KeyedLedger

open Document
open Text (symbols Symbol)

namespace Shape

variable {α : Type}

theorem build_map {β : Type} (g : α → β) (s : Shape α) (get : String → Option Node) :
    (g <$> s).build get = g <$> s.build get :=
  rfl

theorem build_seq {β : Type} (s : Shape (α → β)) (t : Shape α) (get : String → Option Node) :
    (s <*> t).build get = s.build get <*> t.build get := by
  change (do let g ← s.build get; let a ← t.build get; return g a) = _
  simp only [seq_eq_bind_map, map_eq_pure_bind]

/-- The field of an amount. -/
def amountField : Field :=
  ⟨"amount", false, check .decimal⟩

/-- A record with its amount in the second place, which `change` puts into another form. -/
structure HasAmount (s : Shape α) (change : (Decimal → Decimal) → α → α) : Prop where
  declares : s.Declares 1 amountField
  turns : ∀ {m n : Node} {f : Decimal → Decimal},
    Decoder.decimal m = (Decoder.decimal n).map f → s.Turns "amount" m n (change f)

theorem HasAmount.decoder {s : Shape α} {change : (Decimal → Decimal) → α → α}
    (h : s.HasAmount change) {m n : Node} {f : Decimal → Decimal}
    (hamount : Decoder.decimal m = (Decoder.decimal n).map f) {record : Node → Node}
    (hrecord : Open "amount" 1 record) :
    s.decoder (record m) = (s.decoder (record n)).map (change f) := by
  refine decoder_open h.declares ?_ (h.turns hamount) hrecord
  change (Decoder.decimal m).map _ = (Decoder.decimal n).map _
  rw [hamount]
  cases Decoder.decimal n <;> rfl

/-- What is built does not depend on the field of a key. -/
def Ignores (s : Shape α) (key : String) : Prop :=
  ∀ get get' : String → Option Node, (∀ k, k ≠ key → get k = get' k) → s.build get = s.build get'

theorem ignores_field {key other : String} (h : other ≠ key) (d : Decoder α) :
    (field other d).Ignores key := by
  intro get get' hsame
  simp only [field, hsame other h]

theorem ignores_withDefault {key other : String} (h : other ≠ key) (d : Decoder α) (value : α) :
    (withDefault other d value).Ignores key := by
  intro get get' hsame
  simp only [withDefault, hsame other h]

/-- The second of five values is changed before they are put together, or after. -/
theorem seq_second {A B C D E R : Type} (make : A → B → C → D → E → R) (f : B → B) (g : R → R)
    (h : ∀ a b c d e, make a (f b) c d e = g (make a b c d e)) (a : Except Fault A)
    (b : Except Fault B) (c : Except Fault C) (d : Except Fault D) (e : Except Fault E) :
    make <$> a <*> (f <$> b) <*> c <*> d <*> e = g <$> (make <$> a <*> b <*> c <*> d <*> e) := by
  simp only [seq_eq_bind_map, map_eq_pure_bind, bind_assoc, pure_bind, h]

/-- A record of five fields, of which the second one is an amount. -/
theorem hasAmount_of_five {A C D E : Type} {make : A → Decimal → C → D → E → α} {first : Field}
    {a : Shape A} {c : Shape C} {d : Shape D} {e : Shape E}
    {change : (Decimal → Decimal) → α → α} (hfirst : a.fields = [first])
    (hkey : first.key ≠ "amount") (ha : a.Ignores "amount") (hc : c.Ignores "amount")
    (hd : d.Ignores "amount") (he : e.Ignores "amount")
    (hchange : ∀ f a b c d e, make a (f b) c d e = change f (make a b c d e)) :
    (make <$> a <*> field "amount" .decimal <*> c <*> d <*> e).HasAmount change := by
  refine ⟨⟨[first], c.fields ++ d.fields ++ e.fields, ?_, rfl, ?_⟩,
    fun {m n f} hamount get get' hm hn hother => ?_⟩
  · change a.fields ++ [amountField] ++ c.fields ++ d.fields ++ e.fields = _
    rw [hfirst]
    simp only [List.append_assoc, List.cons_append, List.nil_append]
  · simpa [amountField] using hkey.symm
  · have hturned : (field "amount" .decimal).build get =
        f <$> (field "amount" .decimal).build get' := by
      simp only [field, hm, hn]
      exact hamount
    simp only [build_map, build_seq, hturned, ha get get' hother, hc get get' hother,
      hd get get' hother, he get get' hother]
    exact seq_second make f _ (hchange f) _ _ _ _ _

end Shape

open Shape in
theorem TransactionRequest.hasAmount :
    shape.HasAmount fun f r => { r with amount := f r.amount } :=
  hasAmount_of_five rfl (by decide) (ignores_field (by decide) _) (ignores_field (by decide) _)
    (ignores_field (by decide) _) (ignores_withDefault (by decide) _ _) fun _ _ _ _ _ _ => rfl

open Shape in
theorem ApplyTransaction.hasAmount :
    shape.HasAmount fun f c => { c with amount := f c.amount } :=
  hasAmount_of_five rfl (by decide) (ignores_field (by decide) _) (ignores_field (by decide) _)
    (ignores_field (by decide) _) (ignores_field (by decide) _) fun _ _ _ _ _ _ => rfl

/-! ## Two texts of a record -/

/-- Two texts are decoded alike, but for a change of the value: as whole texts, and up to the end
of their first value. -/
structure DecodedAlike {α : Type} (d : Decoder α) (text other : ByteArray) (change : α → α) :
    Prop where
  whole : d.ofBytes text = (d.ofBytes other).map change
  start : d (Document.ofBytes text).root = (d (Document.ofBytes other).root).map change

theorem Shape.HasAmount.alike {α : Type} {s : Shape α} {change : (Decimal → Decimal) → α → α}
    (h : s.HasAmount change) {pre post v w : List Symbol} (hpre : Leads "amount" 1 pre)
    (hpost : Apart post) {m n : Node} (hv : Spells v m) (hw : Spells w n) {f : Decimal → Decimal}
    (hamount : Decoder.decimal m = (Decoder.decimal n).map f) {text other : ByteArray}
    (htext : symbols text = pre ++ (v ++ post)) (hother : symbols other = pre ++ (w ++ post)) :
    DecodedAlike s.decoder text other (change f) := by
  obtain ⟨record, ended, hrecord, hdocument⟩ := hpre.document hpost
  have hread := h.decoder hamount hrecord
  refine ⟨?_, ?_⟩
  · rw [Decoder.ofBytes, Decoder.ofBytes, Document.ofBytes, Document.ofBytes, htext, hother,
      hdocument v m hv, hdocument w n hw, Document.decode, Document.decode]
    simp only [hread]
    cases s.decoder (record n) with
    | error fault => rfl
    | ok a => cases ended <;> rfl
  · rw [Document.ofBytes, Document.ofBytes, htext, hother, hdocument v m hv, hdocument w n hw]
    exact hread

/-- Two texts hold the same amount, whichever record is read from them: both are refused for the
same fault, or both are read as the same. -/
structure SameAmount (text other : ByteArray) : Prop where
  request : TransactionRequest.shape.decoder.ofBytes text =
    TransactionRequest.shape.decoder.ofBytes other
  /-- As a request reads its body, with text behind the record passed over. -/
  request_start : TransactionRequest.shape.decoder (Document.ofBytes text).root =
    TransactionRequest.shape.decoder (Document.ofBytes other).root
  command : ApplyTransaction.shape.decoder.ofBytes text =
    ApplyTransaction.shape.decoder.ofBytes other
  command_start : ApplyTransaction.shape.decoder (Document.ofBytes text).root =
    ApplyTransaction.shape.decoder (Document.ofBytes other).root

/-- The first text is read wherever the second one is, with an amount in the place of the other
one's. -/
structure ReadsAmount (text other : ByteArray) (d : Decimal) : Prop where
  request : ∀ r, TransactionRequest.shape.decoder.ofBytes other = .ok r →
    TransactionRequest.shape.decoder.ofBytes text = .ok { r with amount := d }
  request_start : ∀ r, TransactionRequest.shape.decoder (Document.ofBytes other).root = .ok r →
    TransactionRequest.shape.decoder (Document.ofBytes text).root = .ok { r with amount := d }
  command : ∀ c, ApplyTransaction.shape.decoder.ofBytes other = .ok c →
    ApplyTransaction.shape.decoder.ofBytes text = .ok { c with amount := d }
  command_start : ∀ c, ApplyTransaction.shape.decoder (Document.ofBytes other).root = .ok c →
    ApplyTransaction.shape.decoder (Document.ofBytes text).root = .ok { c with amount := d }

/-- The amount zero. -/
def Numeral.zero : Numeral where
  negative := false
  whole := ⟨['0'], List.cons_ne_nil _ _, List.forall_mem_singleton.mpr rfl⟩
  fraction := none
  exponent := none
  whole_head := .inl rfl

/-- An amount means the same as a number and as a string, for every numeral and whatever the rest of
the text is. If it has no exponent and a decimal holds it exactly, the text is read with exactly
that amount as soon as it is read with the amount zero. -/
theorem amount_spelled_either_way (n : Numeral) {pre post : List Symbol}
    (hpre : Leads "amount" 1 pre) (hpost : Apart post) {plain quoted zero : ByteArray}
    (hplain : symbols plain = pre ++ (n.plain ++ post))
    (hquoted : symbols quoted = pre ++ (n.quoted ++ post))
    (hzero : symbols zero = pre ++ (Numeral.zero.plain ++ post)) :
    SameAmount plain quoted ∧
      (n.exponent = none → (∃ e : Decimal, e.toRat = n.toRat) →
        ∃ d : Decimal, d.toRat = n.toRat ∧ ReadsAmount plain zero d) := by
  have hid : ∀ {α : Type} (x : Except Fault α), x.map id = x := by
    intro α x
    cases x <;> rfl
  refine ⟨?_, fun hexponent hfits => ?_⟩
  · have hamount : Decoder.decimal (.number n.text) =
        (Decoder.decimal (.string (some n.text))).map id := (hid _).symm
    have hrequest := TransactionRequest.hasAmount.alike hpre hpost n.spells n.spells_quoted hamount
      hplain hquoted
    have hcommand := ApplyTransaction.hasAmount.alike hpre hpost n.spells n.spells_quoted hamount
      hplain hquoted
    exact ⟨hrequest.whole.trans (hid _), hrequest.start.trans (hid _),
      hcommand.whole.trans (hid _), hcommand.start.trans (hid _)⟩
  · obtain ⟨d, hread, hvalue⟩ := Numeral.read_exact hexponent hfits
    have hamount : Decoder.decimal (.number n.text) =
        (Decoder.decimal (.number Numeral.zero.text)).map fun _ => d := by
      rw [Decoder.decimal, hread]
      rfl
    have hrequest := TransactionRequest.hasAmount.alike hpre hpost n.spells Numeral.zero.spells
      hamount hplain hzero
    have hcommand := ApplyTransaction.hasAmount.alike hpre hpost n.spells Numeral.zero.spells
      hamount hplain hzero
    refine ⟨d, hvalue, fun r hr => ?_, fun r hr => ?_, fun c hc => ?_, fun c hc => ?_⟩
    · rw [hrequest.whole, hr]
      rfl
    · rw [hrequest.start, hr]
      rfl
    · rw [hcommand.whole, hc]
      rfl
    · rw [hcommand.start, hc]
      rfl

namespace Sample

/-- The largest number with 28 places, and a zero for which there is no room. -/
def brimful : Numeral where
  negative := false
  whole := ⟨['7'], List.cons_ne_nil _ _, List.forall_mem_singleton.mpr rfl⟩
  fraction := some ⟨"92281625142643375935439503350".toList, by decide,
    List.all_eq_true.mp (by decide)⟩
  exponent := none
  whole_head := .inr (by decide)

/-- A request up to its amount. -/
def beginning : String :=
  " \x7b \"accountId\": \"a\" , \"amount\" : "

/-- What follows the amount. -/
def remainder : String :=
  " ,\"currency\":\"EUR\",\"direction\":\"OUT\"\x7d "

/-- The request with an amount. -/
def requestWith (amount : String) : ByteArray :=
  (beginning ++ (amount ++ remainder)).toUTF8

theorem leads_beginning : Leads "amount" 1 (spelled beginning.toList) := by
  have hblank : skipSpace (spelled [' ']) = [] := rfl
  have hkey : Spells (spelled " \"accountId\"".toList) (.string (some "accountId")) := rfl
  have hvalue : Spells (spelled " \"a\" ".toList) (.string (some "a")) := rfl
  have hamount : Spells (spelled " \"amount\" ".toList) (.string (some "amount")) := rfl
  exact .member hblank (.cons hkey hvalue .nil) hamount hblank

theorem symbols_requestWith (amount : String) : symbols (requestWith amount) =
    spelled beginning.toList ++ (spelled amount.toList ++ spelled remainder.toList) := by
  rw [requestWith, symbols_toUTF8, String.toList_append, String.toList_append, spelled_append,
    spelled_append]

theorem brimful_fits : ∃ e : Decimal, e.toRat = brimful.toRat := by
  refine ⟨⟨false, 79228162514264337593543950335, 28, by decide, by decide⟩, ?_⟩
  have hunits : brimful.units = 792281625142643375935439503350 := by decide
  have hplaces : tenTo brimful.places.length = 10 ^ 29 := rfl
  rw [Decimal.toRat_eq, Numeral.toRat, hunits, hplaces]
  norm_num [brimful, tenTo, Numeral.power]

theorem decode_requestWith_zero : TransactionRequest.shape.decoder.ofBytes (requestWith "0") =
    .ok ⟨"a", .zero 0, "EUR", "OUT", ""⟩ := by
  rw [Decoder.ofBytes, Document.ofBytes, symbols_requestWith]
  decide +kernel

theorem amount_spelled_brimful :
    SameAmount (requestWith brimful.text) (requestWith ("\"" ++ (brimful.text ++ "\""))) ∧
      ∃ d : Decimal, d.toRat = brimful.toRat ∧
        TransactionRequest.shape.decoder.ofBytes (requestWith brimful.text) =
          .ok ⟨"a", d, "EUR", "OUT", ""⟩ := by
  have hremainder : Apart (spelled remainder.toList) :=
    ⟨rfl, by decide, by decide, by decide⟩
  have hplain : spelled brimful.text.toList = brimful.plain := by
    rw [Numeral.text, String.toList_ofList, Numeral.plain]
  have hquoted : spelled ("\"" ++ (brimful.text ++ "\"")).toList = brimful.quoted := by
    rw [String.toList_append, String.toList_append, spelled_append, spelled_append, hplain]
    rfl
  obtain ⟨hsame, hexact⟩ := amount_spelled_either_way brimful leads_beginning hremainder
    (by rw [symbols_requestWith, hplain]) (by rw [symbols_requestWith, hquoted])
    (symbols_requestWith "0")
  obtain ⟨d, hvalue, hreads⟩ := hexact rfl brimful_fits
  exact ⟨hsame, d, hvalue, hreads.request _ decode_requestWith_zero⟩

end Sample

end KeyedLedger
