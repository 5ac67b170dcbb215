import Kontxt.Core.GenerationServer
import Kontxt.Go.Number

/-!
# Integers on Their Way into a Token

A field of the transaction context that is taken from the request body is decoded
from JSON and encoded again. A string is taken over as it is. An integer becomes a
double on the way, and the token carries the text of the double.

`integers_sealed_iff` says for which integers that text is the integer: those
whose double is written with their own digits and without an exponent. All
integers up to `2 ^ 53` are, and the next one is not. It also says which integers
give the same text, those with the same double, so that the token does not tell
them apart while the service behind it does.

Of `encoding/json` it is assumed that a number becomes the nearest double, that a
number out of range is an error, and that a whole double is written with the
fewest digits that read back. How a body is scanned is any function `parse`.

## Main definitions

* `ExtAuth.ReadsNumbers`: What is assumed of the decoders.
* `ExtAuth.HasInteger`: A body with an integer literal in a field.
* `ExtAuth.doubleOf`: The double of an integer literal.
* `ExtAuth.WrittenOut`: An integer whose double is written as the integer.
* `ExtAuth.documented`: Decoders for given documents.

## Theorems

* `ExtAuth.extractTctxField_integer`: What is extracted for an integer.
* `ExtAuth.numberText_doubleOf_iff`: When that is the integer.
* `ExtAuth.writtenOut_of_le`: Integers up to `2 ^ 53`.
* `ExtAuth.integers_sealed_iff`: Which integers are sealed exactly.
* `ExtAuth.integer_sealed_inexactly`: Two bodies with the same text.
-/

namespace Kontxt

namespace ExtAuth

open Go Lib

/-- What is assumed of the decoders, given how bodies are scanned: an object is
    decoded member by member, a number that is out of range is an error, and a whole
    double is written with its shortest decimal. -/
structure ReadsNumbers (D : Decoders) (parse : String → Option Doc) : Prop where
  parse_empty : parse "" = none
  unmarshal_decoded : ∀ body members o, parse body = some (.obj members) →
    decodeMembers members [] = some o →
    ∃ o', D.unmarshal body = .ok (some o') ∧ ∀ k, o'.lookup k = o.lookup k
  unmarshal_range : ∀ body members, parse body = some (.obj members) →
    decodeMembers members [] = none → ∃ e, D.unmarshal body = .error e
  marshal_whole : ∀ v : Int, nearestDouble v.natAbs = v.natAbs →
    D.marshal (.num v) = numberText v

/-- A body is an object in which a field is an integer literal. Of several members of
    the name the last one counts. -/
structure HasInteger (parse : String → Option Doc) (body field : String)
    (members : List (String × Doc)) (n : Int) : Prop where
  parsed : parse body = some (.obj members)
  last : members.reverse.lookup field = some (.integer n)

/-- All numbers of a body are in range. -/
def NumbersInRange (members : List (String × Doc)) : Prop :=
  (decodeMembers members []).isSome = true

/-- The double of an integer literal. -/
def doubleOf (n : Int) : Int :=
  withSign n (nearestDouble n.natAbs)

/-- The double of an integer is written without an exponent and with the integer's
    own digits. -/
def WrittenOut (n : Int) : Prop :=
  nearestDouble n.natAbs < 10 ^ 21 ∧
    shorten nearestDouble (nearestDouble n.natAbs) = n.natAbs

section Doubles

theorem natAbs_doubleOf (n : Int) : (doubleOf n).natAbs = nearestDouble n.natAbs := by
  unfold doubleOf withSign
  split
  · rw [Int.natAbs_neg, Int.natAbs_natCast]
  · exact Int.natAbs_natCast _

theorem nearestDouble_nearestDouble (n : Nat) :
    nearestDouble (nearestDouble n) = nearestDouble n :=
  nearest_nearestDouble.eq_self _ (nearest_nearestDouble.representable n)

theorem doubleOf_neg_iff (n : Int) : doubleOf n < 0 ↔ n < 0 := by
  unfold doubleOf withSign
  by_cases hn : n < 0
  · -- The double of a number that is not zero is not zero.
    have hpos : nearestDouble 1 ≤ nearestDouble n.natAbs :=
      nearest_nearestDouble.mono 1 n.natAbs (by omega)
    rw [nearestDouble_of_le 1 (by decide)] at hpos
    rw [if_pos hn]
    omega
  · rw [if_neg hn]
    omega

theorem toString_int (n : Int) :
    toString n = if n < 0 then "-" ++ toString n.natAbs else toString n.natAbs := by
  rw [Int.toString_eq_repr, Int.repr_eq_if]
  by_cases hn : n < 0
  · have habs : (-n).toNat = n.natAbs := by omega
    rw [if_pos hn, if_neg (by omega), habs]
    rfl
  · have habs : n.toNat = n.natAbs := by omega
    rw [if_neg hn, if_pos (by omega), habs]
    rfl

theorem doubleText_eq_toString_iff (v n : Nat) :
    doubleText v = toString n ↔ v < 10 ^ 21 ∧ shorten nearestDouble v = n := by
  unfold doubleText
  by_cases hplain : v < 10 ^ 21
  · rw [if_pos hplain]
    constructor
    · intro h
      exact ⟨hplain, toString_nat_inj _ _ h⟩
    · intro h
      rw [h.2]
  · rw [if_neg hplain]
    exact iff_of_false (exponentText_ne_toString _ _) fun h => hplain h.1

/-- The text of an integer's double is the integer just when it is written out. -/
theorem numberText_doubleOf_iff (n : Int) :
    numberText (doubleOf n) = toString n ↔ WrittenOut n := by
  unfold WrittenOut numberText
  rw [toString_int, natAbs_doubleOf, ← doubleText_eq_toString_iff]
  by_cases hn : n < 0
  · rw [if_pos hn, if_pos ((doubleOf_neg_iff n).mpr hn)]
    exact String.append_right_inj "-"
  · rw [if_neg hn, if_neg fun h => hn ((doubleOf_neg_iff n).mp h)]

/-- Integers up to `2 ^ 53` are written out: they are doubles, and no multiple of ten
    but themselves is read as one of them. -/
theorem writtenOut_of_le (n : Int) (h : n.natAbs ≤ 2 ^ 53) : WrittenOut n := by
  unfold WrittenOut
  rw [nearestDouble_of_le n.natAbs h]
  refine ⟨by omega, shorten_eq_self nearestDouble n.natAbs ?_⟩
  intro m hten hround
  by_cases hm : m ≤ 2 ^ 53
  · rw [nearestDouble_of_le m hm] at hround
    exact hround
  · -- The next double is already too large, and no multiple of ten is closer.
    exfalso
    have hnext : nearestDouble (2 ^ 53 + 2) = 2 ^ 53 + 2 :=
      nearest_nearestDouble.eq_self _ ⟨2 ^ 52 + 1, 1, by decide, by decide⟩
    have hmono := nearest_nearestDouble.mono (2 ^ 53 + 2) m (by omega)
    omega

end Doubles

section Extraction

variable (u : Unicode) (D : Decoders) (parse : String → Option Doc)

/-- What is extracted for an integer literal: the text of its double, or an error if
    a number of the body is out of range. -/
theorem extractTctxField_integer (hD : ReadsNumbers D parse) (httpReq : EntryHttp)
    (mapping : V1alpha1.TctxFieldMapping) (hsource : mapping.source = "body")
    (members : List (String × Doc)) (n : Int)
    (hbody : HasInteger parse httpReq.body mapping.field members n) :
    (NumbersInRange members →
      extractTctxField u D httpReq mapping = .ok (numberText (doubleOf n))) ∧
    (¬NumbersInRange members → ∃ e, extractTctxField u D httpReq mapping = .error e) := by
  have hne : httpReq.body ≠ "" := by
    intro hempty
    have hparsed := hbody.parsed
    rw [hempty, hD.parse_empty] at hparsed
    cases hparsed
  unfold NumbersInRange extractTctxField
  rw [if_pos hsource, if_neg hne]
  cases hdecoded : decodeMembers members [] with
  | none =>
      rcases hD.unmarshal_range httpReq.body members hbody.parsed hdecoded with ⟨e, he⟩
      rw [he]
      simp
  | some o =>
      rcases hD.unmarshal_decoded httpReq.body members o hbody.parsed hdecoded with
        ⟨o', ho', hlookup⟩
      -- The whole body was decoded, so the integer itself is in range.
      have hmem : (mapping.field, Doc.integer n) ∈ members := by
        rcases List.lookup_eq_some_iff.mp hbody.last with ⟨before, after, hsplit, _⟩
        rw [← List.mem_reverse, hsplit]
        exact List.mem_append_right _ List.mem_cons_self
      have hsome := decode_of_mem members [] o hdecoded _ _ hmem
      have hfield : o'.lookup mapping.field = some (.num (doubleOf n)) := by
        rw [hlookup, lookup_decodeMembers members [] o hdecoded, hbody.last, Option.elim_some]
        unfold decode decodeInteger at hsome ⊢
        split at hsome
        · next hrange => rw [if_pos hrange, doubleOf]
        · cases hsome
      have htext : D.marshal (.num (doubleOf n)) = numberText (doubleOf n) := by
        refine hD.marshal_whole (doubleOf n) ?_
        rw [natAbs_doubleOf, nearestDouble_nearestDouble]
      rw [ho']
      simp [hfield, htext]

end Extraction

/-- Which integers are sealed exactly. For every body in which a field is an integer
    literal: what is extracted is the integer just when all numbers of the body are in
    range and the integer's double is written out. Integers up to `2 ^ 53` are written
    out. Two bodies whose numbers are in range give the same value just when their
    integers have the same double. -/
theorem integers_sealed_iff (u : Unicode) (D : Decoders) (parse : String → Option Doc)
    (hD : ReadsNumbers D parse) (httpReq : EntryHttp) (mapping : V1alpha1.TctxFieldMapping)
    (hsource : mapping.source = "body") (members : List (String × Doc)) (n : Int)
    (hbody : HasInteger parse httpReq.body mapping.field members n) :
    (extractTctxField u D httpReq mapping = .ok (toString n) ↔
      NumbersInRange members ∧ WrittenOut n) ∧
    (n.natAbs ≤ 2 ^ 53 → WrittenOut n) ∧
    ∀ (httpReq' : EntryHttp) (members' : List (String × Doc)) (n' : Int),
      HasInteger parse httpReq'.body mapping.field members' n' →
      NumbersInRange members → NumbersInRange members' →
      (extractTctxField u D httpReq mapping = extractTctxField u D httpReq' mapping ↔
        doubleOf n = doubleOf n') := by
  rcases extractTctxField_integer u D parse hD httpReq mapping hsource members n hbody with
    ⟨htext, herror⟩
  refine ⟨?_, writtenOut_of_le n, ?_⟩
  · by_cases hrange : NumbersInRange members
    · rw [htext hrange, Except.ok.injEq, numberText_doubleOf_iff]
      exact (and_iff_right hrange).symm
    · rcases herror hrange with ⟨e, he⟩
      rw [he]
      exact iff_of_false (by simp) fun h => hrange h.1
  · intro httpReq' members' n' hbody' hrange hrange'
    rw [htext hrange, (extractTctxField_integer u D parse hD httpReq' mapping hsource members' n'
      hbody').1 hrange', Except.ok.injEq]
    constructor
    · intro h
      -- Both are doubles, and a double can be read back from its text.
      refine numberText_inj _ _ ?_ ?_ h
      · rw [natAbs_doubleOf, nearestDouble_nearestDouble]
      · rw [natAbs_doubleOf, nearestDouble_nearestDouble]
    · intro h
      rw [h]

section Documents

variable (bodies : List (String × List (String × Doc)))

/-- The documents of given bodies. -/
def scanned (body : String) : Option Doc :=
  (bodies.lookup body).map .obj

/-- A text that does not begin as an object does is none of the bodies. -/
theorem lookup_of_head (hbodies : ∀ b ∈ bodies, b.1.toList.head? = some '\x7b') (text : String)
    (htext : text.toList.head? ≠ some '\x7b') : bodies.lookup text = none := by
  rw [List.lookup_eq_none_iff]
  intro b hb
  rw [bne_iff_ne]
  rintro rfl
  exact htext (hbodies b hb)

/-- Decoders for given bodies, which begin as objects do, and for objects of
    strings. -/
def documented (hbodies : ∀ b ∈ bodies, b.1.toList.head? = some '\x7b') : Decoders where
  unmarshal := fun s =>
    match bodies.lookup s with
    | some members =>
      match decodeMembers members [] with
      | some o => .ok (some o)
      | none => .error "number out of range"
    | none => Decoders.framed.unmarshal s
  marshal := fun v =>
    match v with
    | .num q => if q.den = 1 then numberText q.num else Decoders.framed.marshal v
    | _ => Decoders.framed.marshal v
  parseQuery := Decoders.framed.parseQuery
  marshal_ne := Decoders.framed.marshal_ne
  unmarshal_marshal := by
    intro o ho
    -- A framed object begins with its frame.
    have hnone : bodies.lookup (Decoders.framed.marshal (.obj o)) = none :=
      lookup_of_head bodies hbodies _ (by simp [Decoders.framed])
    simp only [hnone]
    exact Decoders.framed.unmarshal_marshal o ho

theorem readsNumbers_documented
    (hbodies : ∀ b ∈ bodies, b.1.toList.head? = some '\x7b') :
    ReadsNumbers (documented bodies hbodies) (scanned bodies) where
  parse_empty := by
    have hnone : bodies.lookup "" = none := lookup_of_head bodies hbodies "" (by decide)
    unfold scanned
    rw [hnone]
    rfl
  unmarshal_decoded := by
    intro body members o hparse hdecoded
    have hlookup : bodies.lookup body = some members := by
      simpa [scanned] using hparse
    refine ⟨o, ?_, fun _ => rfl⟩
    simp only [documented, hlookup, hdecoded]
  unmarshal_range := by
    intro body members hparse hdecoded
    have hlookup : bodies.lookup body = some members := by
      simpa [scanned] using hparse
    refine ⟨"number out of range", ?_⟩
    simp only [documented, hlookup, hdecoded]
  marshal_whole := by
    intro v _
    simp [documented]

end Documents

/-- Bodies with the numbers `2 ^ 53` and `2 ^ 53 + 1`. -/
def orderBodies : List (String × List (String × Doc)) :=
  [("\x7b\"id\":9007199254740992\x7d", [("id", .integer 9007199254740992)]),
    ("\x7b\"id\":9007199254740993\x7d", [("id", .integer 9007199254740993)])]

theorem orderBodies_head : ∀ b ∈ orderBodies, b.1.toList.head? = some '\x7b' := by
  decide

/-- A request with one of them. -/
def orderIdRequest (body : String) : EntryHttp where
  method := "POST"
  path := "/orders"
  headers := ∅
  body := body

/-- The mapping of the field. -/
def orderIdMapping : V1alpha1.TctxFieldMapping where
  source := "body"
  field := "id"
  required := true

/-- One number that is in range is all the numbers of an order. -/
theorem numbersInRange_order (n : Int) (h : nearestDouble n.natAbs = 2 ^ 53) :
    NumbersInRange [("id", .integer n)] := by
  have hpow : ∀ e, 53 < e → nearestDouble n.natAbs < 2 ^ e := by
    intro e he
    rw [h]
    exact Nat.pow_lt_pow_right Nat.one_lt_two he
  have hrange := hpow 1024 (by decide)
  unfold NumbersInRange decodeMembers decode decodeInteger
  rw [if_pos hrange]
  rfl

/-- The last integer that is sure to be sealed exactly. -/
theorem integers_sealed_order :
    extractTctxField Unicode.ascii (documented orderBodies orderBodies_head)
      (orderIdRequest "\x7b\"id\":9007199254740992\x7d") orderIdMapping =
        .ok (toString (9007199254740992 : Int)) := by
  have hsealed := integers_sealed_iff Unicode.ascii (documented orderBodies orderBodies_head)
    (scanned orderBodies) (readsNumbers_documented orderBodies orderBodies_head)
    (orderIdRequest "\x7b\"id\":9007199254740992\x7d") orderIdMapping rfl
    [("id", .integer 9007199254740992)] 9007199254740992 ⟨rfl, rfl⟩
  exact hsealed.1.mpr ⟨numbersInRange_order _ (by decide), hsealed.2.1 (by decide)⟩

/-- The next one is sealed as the one before it. -/
theorem integer_sealed_inexactly :
    extractTctxField Unicode.ascii (documented orderBodies orderBodies_head)
      (orderIdRequest "\x7b\"id\":9007199254740993\x7d") orderIdMapping =
        .ok "9007199254740992" ∧
    extractTctxField Unicode.ascii (documented orderBodies orderBodies_head)
      (orderIdRequest "\x7b\"id\":9007199254740992\x7d") orderIdMapping =
        .ok "9007199254740992" := by
  have htext : numberText (doubleOf 9007199254740992) = "9007199254740992" :=
    (numberText_doubleOf_iff _).mpr (writtenOut_of_le _ (by decide))
  have hsame : doubleOf 9007199254740993 = doubleOf 9007199254740992 := by decide
  have hextract := extractTctxField_integer Unicode.ascii (documented orderBodies orderBodies_head)
    (scanned orderBodies) (readsNumbers_documented orderBodies orderBodies_head)
  constructor
  · rw [← htext, ← hsame]
    exact (hextract _ orderIdMapping rfl [("id", .integer 9007199254740993)] _ ⟨rfl, rfl⟩).1
      (numbersInRange_order _ (by decide))
  · rw [← htext]
    exact (hextract _ orderIdMapping rfl [("id", .integer 9007199254740992)] _ ⟨rfl, rfl⟩).1
      (numbersInRange_order _ (by decide))

end ExtAuth

end Kontxt
