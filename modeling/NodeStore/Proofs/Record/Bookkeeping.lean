import NodeStore.Proofs.Assoc
import NodeStore.Proofs.Json
import NodeStore.Proofs.Text.Utf8
import NodeStore.Record.Basic

/-! # Bookkeeping records are read as they were written

A record goes through three layers: its fields and the members of an object, the object and its
text, the text and its bytes. Each layer is undone on its own, and `Ledger.decode_encode` puts them
together for any kind of entry.

* `Payment.ofJson_toJson`, `Swap.ofJson_toJson`: the fields of one entry;
* `Field.table_map`: the entries, in their order;
* `Ledger.decode_encode`: a record whose entries are read back and can be read;
* `Record.decode_encode_bookkeeping`: payments, sweep transactions and swaps. -/

namespace NodeStore

/-! ## Integers that can be written -/

/-- The integer has fewer than 4300 decimal digits. -/
def Json.ShortInt (n : Int) : Prop := (Nat.toDigits 10 n.natAbs).length < 4300

instance (n : Int) : Decidable (Json.ShortInt n) :=
  inferInstanceAs (Decidable (_ < _))

namespace Json

variable {members : List (String × Json)} {key : String} {v : Json}

theorem length_printInt (n : Int) :
    (printInt n).length ≤ (Nat.toDigits 10 n.natAbs).length + 1 := by
  cases n with
  | ofNat n =>
    rw [printInt_ofNat]
    exact Nat.le_succ _
  | negSucc n =>
    rw [printInt_negSucc]
    exact Nat.le_refl _

theorem Readable.shortInt (depth : Nat) {n : Int} (h : ShortInt n) : Readable depth (.int n) := by
  have hlength := length_printInt n
  unfold ShortInt at h
  apply Readable.int
  rw [maxDigits]
  omega

theorem Readable.option {α : Type} {f : α → Json} {depth : Nat} {o : Option α}
    (h : ∀ a ∈ o, Readable depth (f a)) : Readable depth (ofOption f o) := by
  cases o with
  | none => exact Readable.null depth
  | some a => exact h a rfl

/-- The members of an object with distinct keys are what is found under them. -/
theorem member?_of_nodup (hkeys : (members.map Prod.fst).Nodup) (h : (key, v) ∈ members) :
    member? key members = some v := by
  have hreverse : (members.reverse.map Prod.fst).Nodup := by
    rw [List.map_reverse, List.nodup_reverse]
    exact hkeys
  exact (Assoc.mem_iff_lookup hreverse).1 (List.mem_reverse.2 h)

end Json

/-! ## Fields -/

namespace Field

variable {α : Type} {check : Json → Checked α} {members : List (String × Json)}

/-- A field that is there is what its check makes of it. -/
theorem get_of_mem (name : String) (hkeys : (members.map Prod.fst).Nodup) {v : Json} {a : α}
    (h : (name, v) ∈ members) (hcheck : check v = .ok a) (default : Option α) :
    get members name default check = .ok a := by
  unfold get
  rw [Json.member?_of_nodup hkeys h]
  simp only
  rw [hcheck]
  rfl

/-- An optional value is read from itself or from nothing. -/
theorem optional_ofOption {value : α → Json} (hnull : ∀ a, value a ≠ .null)
    (hread : ∀ a, check (value a) = .ok a) (o : Option α) :
    optional check (Json.ofOption value o) = .ok o := by
  cases o with
  | none => rfl
  | some a =>
    rw [Json.ofOption, optional]
    · rw [hread]
      rfl
    · exact hnull a

theorem int_int (n : Int) : int (.int n) = .ok n := rfl

/-- The version that is written is the one that is read. -/
theorem one_int : one (.int 1) = .ok () := rfl

theorem optional_text (o : Option String) : optional text (Json.ofOption .str o) = .ok o := by
  apply optional_ofOption
  · intro s h
    simp at h
  · intro s
    rfl

theorem optional_int (o : Option Int) : optional int (Json.ofOption .int o) = .ok o := by
  apply optional_ofOption
  · intro n h
    simp at h
  · exact int_int

theorem oneOf_paymentStatus (s : PaymentStatus) :
    oneOf PaymentStatus.names (.str s.name) = .ok s := by
  cases s <;> rfl

theorem oneOf_swapStatus (s : SwapStatus) : oneOf SwapStatus.names (.str s.name) = .ok s := by
  cases s <;> rfl

theorem entries_map {value : α → Json} (hread : ∀ a, check (value a) = .ok a)
    (pairs : List (String × α)) :
    entries check (pairs.map fun (k, a) => (k, value a)) = .ok pairs := by
  induction pairs with
  | nil => rfl
  | cons p rest ih =>
    rcases p with ⟨k, a⟩
    rw [List.map_cons, entries, ih, hread]
    rfl

/-- A map is read with its entries in their order. -/
theorem table_map {value : α → Json} (hread : ∀ a, check (value a) = .ok a)
    {pairs : List (String × α)} (hkeys : (pairs.map Prod.fst).Nodup) :
    table check (.obj (pairs.map fun (k, a) => (k, value a))) = .ok pairs := by
  rw [table, entries_map hread]
  exact congrArg Except.ok (Assoc.ofList_of_nodup hkeys)

end Field

/-! ## Payments and swaps -/

/-- The integers of a payment are not too long. -/
structure Payment.Short (p : Payment) : Prop where
  amount : ∀ n ∈ p.amountMsat, Json.ShortInt n
  created : Json.ShortInt p.createdAt
  updated : Json.ShortInt p.updatedAt

theorem Payment.ofJson_toJson (p : Payment) : Payment.ofJson p.toJson = .ok p := by
  have hkeys : ["preimage", "secret", "status", "amt_msat", "created_at", "updated_at"].Nodup := by
    decide
  unfold Payment.ofJson Payment.toJson Field.record
  simp only
  rw [Field.get_of_mem "preimage" (by exact hkeys) (by simp) (Field.optional_text p.preimage),
    Field.get_of_mem "secret" (by exact hkeys) (by simp) (Field.optional_text p.secret),
    Field.get_of_mem "status" (by exact hkeys) (by simp) (Field.oneOf_paymentStatus p.status),
    Field.get_of_mem "amt_msat" (by exact hkeys) (by simp) (Field.optional_int p.amountMsat),
    Field.get_of_mem "created_at" (by exact hkeys) (by simp) (Field.int_int p.createdAt),
    Field.get_of_mem "updated_at" (by exact hkeys) (by simp) (Field.int_int p.updatedAt)]
  rfl

theorem Payment.readable_toJson {p : Payment} (h : p.Short) (depth : Nat) :
    Json.Readable (depth + 1) p.toJson := by
  apply Json.Readable.obj
  intro m hm
  simp only [List.mem_cons, List.not_mem_nil, or_false] at hm
  rcases hm with rfl | rfl | rfl | rfl | rfl | rfl
  · exact Json.Readable.option fun s _ => Json.Readable.str depth s
  · exact Json.Readable.option fun s _ => Json.Readable.str depth s
  · exact Json.Readable.str depth _
  · exact Json.Readable.option fun n hn => Json.Readable.shortInt depth (h.amount n hn)
  · exact Json.Readable.shortInt depth h.created
  · exact Json.Readable.shortInt depth h.updated

/-- The integers of a swap are not too long. -/
structure Swap.Short (s : Swap) : Prop where
  quantityFrom : Json.ShortInt s.quantityFrom
  quantityTo : Json.ShortInt s.quantityTo
  expiry : Json.ShortInt s.expiry

theorem Swap.ofJson_toJson (s : Swap) : Swap.ofJson s.toJson = .ok s := by
  have hkeys : ["qty_from", "qty_to", "from_asset", "to_asset", "expiry", "status"].Nodup := by
    decide
  unfold Swap.ofJson Swap.toJson Field.record
  simp only
  rw [Field.get_of_mem "qty_from" (by exact hkeys) (by simp) (Field.int_int s.quantityFrom),
    Field.get_of_mem "qty_to" (by exact hkeys) (by simp) (Field.int_int s.quantityTo),
    Field.get_of_mem "from_asset" (by exact hkeys) (by simp) (Field.optional_text s.fromAsset),
    Field.get_of_mem "to_asset" (by exact hkeys) (by simp) (Field.optional_text s.toAsset),
    Field.get_of_mem "expiry" (by exact hkeys) (by simp) (Field.int_int s.expiry),
    Field.get_of_mem "status" (by exact hkeys) (by simp) (Field.oneOf_swapStatus s.status)]
  rfl

theorem Swap.readable_toJson {s : Swap} (h : s.Short) (depth : Nat) :
    Json.Readable (depth + 1) s.toJson := by
  apply Json.Readable.obj
  intro m hm
  simp only [List.mem_cons, List.not_mem_nil, or_false] at hm
  rcases hm with rfl | rfl | rfl | rfl | rfl | rfl
  · exact Json.Readable.shortInt depth h.quantityFrom
  · exact Json.Readable.shortInt depth h.quantityTo
  · exact Json.Readable.option fun s _ => Json.Readable.str depth s
  · exact Json.Readable.option fun s _ => Json.Readable.str depth s
  · exact Json.Readable.shortInt depth h.expiry
  · exact Json.Readable.str depth _

/-! ## Records -/

namespace Ledger

variable {α : Type} {name : String} {value : α → Json} {check : Json → Checked α} {r : Ledger α}

theorem ofJson_toJson (hname : "version" ≠ name) (hread : ∀ a, check (value a) = .ok a)
    (hkeys : (r.entries.map Prod.fst).Nodup) :
    ofJson name check (r.toJson name value) = .ok r := by
  have hfields : ["version", name].Nodup := by
    rw [List.nodup_cons, List.mem_singleton]
    exact ⟨hname, List.nodup_singleton name⟩
  unfold ofJson toJson Field.record
  simp only
  rw [Field.get_of_mem "version" (by exact hfields) (by simp) Field.one_int,
    Field.get_of_mem name (by exact hfields) (by simp) (Field.table_map hread hkeys)]
  rfl

/-- A record takes two containers more than its entries. -/
theorem readable_toJson {depth : Nat} (h : ∀ p ∈ r.entries, Json.Readable depth (value p.2)) :
    Json.Readable (depth + 2) (r.toJson name value) := by
  apply Json.Readable.obj
  intro m hm
  simp only [List.mem_cons, List.not_mem_nil, or_false] at hm
  rcases hm with rfl | rfl
  · exact Json.Readable.int _ (by decide)
  · apply Json.Readable.obj
    intro m hm
    rcases List.mem_map.1 hm with ⟨p, hp, rfl⟩
    exact h p hp

/-- A record is read back if its keys are distinct and its entries can be read back. -/
theorem decode_encode (name : String) (value : α → Json) (check : Json → Checked α)
    (hname : "version" ≠ name) (hread : ∀ a, check (value a) = .ok a)
    (hkeys : (r.entries.map Prod.fst).Nodup)
    (hreadable : ∀ p ∈ r.entries, Json.Readable 198 (value p.2)) :
    decode name check (r.encode name value) = .ok r := by
  have hbytes : Utf8.decodeChars (r.encode name value) = .ok (r.toJson name value).print :=
    Utf8.decodeFrom_encodeChars 0 _
  have htext : Json.parseChars (r.toJson name value).print = some (r.toJson name value) :=
    Json.parseChars_print (readable_toJson hreadable)
  unfold decode
  rw [hbytes]
  simp only
  rw [htext]
  exact ofJson_toJson hname hread hkeys

end Ledger

namespace Record

/-- Every bookkeeping record is written, and read back with its entries in their order: payments
and swaps whose integers have fewer than 4300 digits, and sweep transactions, with any texts, with
any state and with every optional field there or not. -/
theorem decode_encode_bookkeeping :
    (∀ r : Ledger Payment, (r.entries.map Prod.fst).Nodup → (∀ p ∈ r.entries, p.2.Short) →
      ∃ b, (payments r).encode = .ok b ∧ RecordKind.payments.decode b = .ok (payments r)) ∧
    (∀ r : Ledger String, (r.entries.map Prod.fst).Nodup →
      ∃ b, (txes r).encode = .ok b ∧ RecordKind.txes.decode b = .ok (txes r)) ∧
    (∀ r : Ledger Swap, (r.entries.map Prod.fst).Nodup → (∀ p ∈ r.entries, p.2.Short) →
      ∃ b, (swaps r).encode = .ok b ∧ RecordKind.swaps.decode b = .ok (swaps r)) := by
  refine ⟨?_, ?_, ?_⟩
  · intro r hkeys hshort
    have hread := Ledger.decode_encode "payments" Payment.toJson Payment.ofJson (by decide)
      Payment.ofJson_toJson hkeys fun p hp => Payment.readable_toJson (hshort p hp) 197
    refine ⟨_, rfl, ?_⟩
    unfold RecordKind.decode
    rw [hread]
    rfl
  · intro r hkeys
    have hread := Ledger.decode_encode "txes" Json.str Field.text (by decide) (fun s => rfl) hkeys
      fun p _ => Json.Readable.str 198 p.2
    refine ⟨_, rfl, ?_⟩
    unfold RecordKind.decode
    rw [hread]
    rfl
  · intro r hkeys hshort
    have hread := Ledger.decode_encode "swaps" Swap.toJson Swap.ofJson (by decide)
      Swap.ofJson_toJson hkeys fun p hp => Swap.readable_toJson (hshort p hp) 197
    refine ⟨_, rfl, ?_⟩
    unfold RecordKind.decode
    rw [hread]
    rfl

/-- Two payments. The key of the first is a quote, a backslash, a line feed, a null character and
a letter of two bytes; the second has an empty key and nothing but defaults. -/
def twoPayments : Ledger Payment :=
  ⟨[("\"\\\n\x00é", ⟨some "\t\x1f/", none, .failed, some (-1), -1700000000, 0⟩), ("", {})]⟩

/-- A sweep transaction under a key of four bytes. -/
def oneSweep : Ledger String := ⟨[("😀", "\r\x08\x0c")]⟩

/-- A swap from an asset without a name. -/
def oneSwap : Ledger Swap := ⟨[("01", ⟨-10, 20, some "", none, 0, .expired⟩)]⟩

/-- Records with every kind of escape, negative integers and fields that are missing are read back,
and so is a record without entries. -/
theorem escapes_read_back :
    ((twoPayments.entries.map Prod.fst).Nodup ∧ (∀ p ∈ twoPayments.entries, p.2.Short) ∧
      ∃ b, (payments twoPayments).encode = .ok b ∧
        RecordKind.payments.decode b = .ok (payments twoPayments)) ∧
    ((oneSweep.entries.map Prod.fst).Nodup ∧
      ∃ b, (txes oneSweep).encode = .ok b ∧ RecordKind.txes.decode b = .ok (txes oneSweep)) ∧
    ((oneSwap.entries.map Prod.fst).Nodup ∧ (∀ p ∈ oneSwap.entries, p.2.Short) ∧
      ∃ b, (swaps oneSwap).encode = .ok b ∧ RecordKind.swaps.decode b = .ok (swaps oneSwap)) ∧
    ∃ b, (txes {}).encode = .ok b ∧ RecordKind.txes.decode b = .ok (txes {}) := by
  have hpayments : ∀ p ∈ twoPayments.entries, p.2.Short := by
    intro p hp
    simp only [twoPayments, List.mem_cons, List.not_mem_nil, or_false] at hp
    rcases hp with rfl | rfl
    · refine ⟨?_, by decide, by decide⟩
      intro n hn
      rw [Option.mem_some] at hn
      rw [← hn]
      decide
    · refine ⟨?_, by decide, by decide⟩
      intro n hn
      simp at hn
  have hswaps : ∀ p ∈ oneSwap.entries, p.2.Short := by
    intro p hp
    simp only [oneSwap, List.mem_cons, List.not_mem_nil, or_false] at hp
    rw [hp]
    exact ⟨by decide, by decide, by decide⟩
  have hkeys : (twoPayments.entries.map Prod.fst).Nodup := by decide
  refine ⟨⟨hkeys, hpayments, ?_⟩, ⟨List.nodup_singleton _, ?_⟩,
    ⟨List.nodup_singleton _, hswaps, ?_⟩, ?_⟩
  · exact decode_encode_bookkeeping.1 twoPayments hkeys hpayments
  · exact decode_encode_bookkeeping.2.1 oneSweep (List.nodup_singleton _)
  · exact decode_encode_bookkeeping.2.2 oneSwap (List.nodup_singleton _) hswaps
  · exact decode_encode_bookkeeping.2.1 {} List.nodup_nil

end Record

end NodeStore
