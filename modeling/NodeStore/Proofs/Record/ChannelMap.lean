import Mathlib.Algebra.Group.Nat.Defs
import Mathlib.Data.Finset.Card
import NodeStore.Proofs.Assoc
import NodeStore.Proofs.Bytes
import NodeStore.Record.ChannelMap

/-! # The format of channel maps

`Written pairs d` says what the bytes `d` are: a header that tells the number of pairs, and the
pairs one after the other. `Framed d` says what a reader can see of it before it knows any pair:
magic, version, and a length that fits the number in the header. The two are the same
(`written_of_framed`), and both are what reading accepts.

* `decode_of_written`, `framed_of_decode`: reading, both ways;
* `encode_of_sizes`, `encode_of_badSize`: writing;
* `codec_exact`: reading undoes writing, and writing undoes reading exactly where no temporary id
  is repeated.
-/

namespace NodeStore

namespace ChannelMap

variable {pairs : List (Bytes × Bytes)} {d : Bytes} {m : ChannelMap}

/-! ## The format -/

/-- Pairs of ids one after the other. -/
def join (pairs : List (Bytes × Bytes)) : Bytes :=
  pairs.flatMap fun p => p.1 ++ p.2

/-- Both ids of a pair have their size. -/
def Sized (p : Bytes × Bytes) : Prop :=
  p.1.length = 32 ∧ p.2.length = 32

instance (p : Bytes × Bytes) : Decidable (Sized p) :=
  inferInstanceAs (Decidable (_ ∧ _))

/-- The bytes are a header that tells the number of pairs, and the pairs. -/
structure Written (pairs : List (Bytes × Bytes)) (d : Bytes) : Prop where
  few : pairs.length < 2 ^ 32
  sized : ∀ p ∈ pairs, Sized p
  bytes : d = magic ++ version :: Bytes.ofNat 4 pairs.length ++ join pairs

/-- The bytes begin with magic and version, and their length is the one that the number in the
header announces. -/
structure Framed (d : Bytes) : Prop where
  magic : ChannelMap.magic <+: d
  version : d[4]? = some ChannelMap.version
  length : d.length = 9 + 64 * Bytes.toNat ((d.drop 5).take 4)

theorem length_join (h : ∀ p ∈ pairs, Sized p) : (join pairs).length = 64 * pairs.length := by
  induction pairs with
  | nil => rfl
  | cons p rest ih =>
    rcases h p List.mem_cons_self with ⟨ht, hf⟩
    have hrest := ih fun q hq => h q (List.mem_cons_of_mem p hq)
    unfold join at hrest ⊢
    rw [List.flatMap_cons, List.length_append, List.length_append, hrest, ht, hf,
      List.length_cons]
    omega

/-- The pairs that were written are read. -/
theorem readPairs_join (h : ∀ p ∈ pairs, Sized p) :
    readPairs pairs.length (join pairs) = pairs := by
  induction pairs with
  | nil => rfl
  | cons p rest ih =>
    rcases p with ⟨t, f⟩
    rcases h (t, f) List.mem_cons_self with ⟨ht, hf⟩
    have hjoin : join ((t, f) :: rest) = t ++ (f ++ join rest) := by
      unfold join
      rw [List.flatMap_cons, List.append_assoc]
    have hfirst : (t ++ (f ++ join rest)).take idSize = t := List.take_left' ht
    have hafter : (t ++ (f ++ join rest)).drop idSize = f ++ join rest := List.drop_left' ht
    have hsecond : (f ++ join rest).take idSize = f := List.take_left' hf
    have hboth : (t ++ (f ++ join rest)).drop (2 * idSize) = join rest := by
      rw [← List.append_assoc]
      apply List.drop_left'
      rw [List.length_append, ht, hf]
      rfl
    rw [hjoin, List.length_cons, readPairs, hfirst, hafter, hsecond, hboth,
      ih fun q hq => h q (List.mem_cons_of_mem _ hq)]

/-- What is long enough consists of pairs, which are the ones that are read. -/
theorem readPairs_spec {count : Nat} {b : Bytes} (h : b.length = 64 * count) :
    (readPairs count b).length = count ∧ (∀ p ∈ readPairs count b, Sized p) ∧
      join (readPairs count b) = b := by
  induction count generalizing b with
  | zero =>
    have hnil : b = [] := List.eq_nil_of_length_eq_zero (by omega)
    subst hnil
    exact ⟨rfl, by simp [readPairs], rfl⟩
  | succ count ih =>
    have hdrop : (b.drop (2 * idSize)).length = 64 * count := by
      rw [List.length_drop, h, idSize]
      omega
    rcases ih hdrop with ⟨hlength, hsized, hjoin⟩
    rw [readPairs]
    refine ⟨by rw [List.length_cons, hlength], ?_, ?_⟩
    · intro p hp
      rcases List.mem_cons.1 hp with rfl | hp
      · constructor
        · rw [List.length_take, h, idSize]
          omega
        · rw [List.length_take, List.length_drop, h, idSize]
          omega
      · exact hsized p hp
    · -- the first two ids and what follows them make up the bytes
      have hsplit : b.drop (2 * idSize) = (b.drop idSize).drop idSize := by
        rw [List.drop_drop]
        rfl
      unfold join at hjoin ⊢
      rw [List.flatMap_cons, hjoin, hsplit, List.append_assoc, List.take_append_drop,
        List.take_append_drop]

/-! ## Reading -/

theorem decode_of_written (h : Written pairs d) : decode d = .ok (ofPairs pairs) := by
  rcases h with ⟨hfew, hsized, rfl⟩
  have hcount : (Bytes.ofNat 4 pairs.length).length = 4 := Bytes.length_ofNat 4 _
  have hnumber : (Bytes.ofNat 4 pairs.length ++ join pairs).take 4 = Bytes.ofNat 4 pairs.length :=
    List.take_left' hcount
  have hbody : (Bytes.ofNat 4 pairs.length ++ join pairs).drop 4 = join pairs :=
    List.drop_left' hcount
  have hlength : (Bytes.ofNat 4 pairs.length ++ join pairs).length = 4 + 64 * pairs.length := by
    rw [List.length_append, hcount, length_join hsized]
  have hread : Bytes.toNat (Bytes.ofNat 4 pairs.length) = pairs.length := Bytes.toNat_ofNat hfew
  -- the fixed part of the header is seen through; the rest is the number and the pairs
  show decode (0x43 :: 0x49 :: 0x44 :: 0x4d :: 1 :: (Bytes.ofNat 4 pairs.length ++ join pairs)) = _
  generalize Bytes.ofNat 4 pairs.length ++ join pairs = rest at hnumber hbody hlength
  have htotal : (0x43 :: 0x49 :: 0x44 :: 0x4d :: 1 :: rest : Bytes).length =
      9 + 64 * pairs.length := by
    simp only [List.length_cons, hlength]
    omega
  have hnumber' : ((0x43 :: 0x49 :: 0x44 :: 0x4d :: 1 :: rest : Bytes).drop 5).take 4 =
      Bytes.ofNat 4 pairs.length := hnumber
  have hbody' : (0x43 :: 0x49 :: 0x44 :: 0x4d :: 1 :: rest : Bytes).drop headerSize = join pairs :=
    hbody
  unfold decode
  rw [if_neg (by rw [htotal, headerSize]; omega), if_neg (by simp [magic])]
  simp only [hnumber', hbody', hread]
  rw [if_neg (by simp [version]), if_neg, readPairs_join hsized]
  rw [htotal, headerSize, idSize]
  omega

/-- What is read is framed. -/
theorem framed_of_decode (h : decode d = .ok m) : Framed d := by
  unfold decode at h
  split at h
  · simp at h
  rename_i hheader
  split at h
  · simp at h
  rename_i hmagic
  simp only at h
  split at h
  · simp at h
  rename_i hversion
  split at h
  · simp at h
  rename_i hsize
  rw [headerSize] at hheader
  constructor
  · exact ⟨d.drop 4, by rw [← Decidable.not_not.1 hmagic, List.take_append_drop]⟩
  · have hfourth : 4 < d.length := by omega
    rw [List.getElem?_eq_getElem hfourth]
    rw [List.drop_eq_getElem_cons hfourth, List.headD_cons] at hversion
    rw [Decidable.not_not.1 hversion]
  · rw [Decidable.not_not.1 hsize, headerSize, idSize]
    omega

/-- What is framed consists of pairs. -/
theorem written_of_framed (h : Framed d) : ∃ pairs, Written pairs d := by
  rcases h with ⟨⟨rest, rfl⟩, hversion, hlength⟩
  cases rest with
  | nil => simp [magic] at hversion
  | cons v rest =>
    have hv : v = version := by simpa [magic] using hversion
    subst hv
    -- the number and the pairs, which follow the fixed part of the header
    have hnumber : ((magic ++ version :: rest).drop 5).take 4 = rest.take 4 := rfl
    have htotal : (magic ++ version :: rest).length = 5 + rest.length := by
      simp only [magic, List.length_append, List.length_cons, List.length_nil]
      omega
    rw [hnumber, htotal] at hlength
    have hfour : (rest.take 4).length = 4 := by
      rw [List.length_take]
      omega
    have hbody : (rest.drop 4).length = 64 * Bytes.toNat (rest.take 4) := by
      rw [List.length_drop]
      omega
    rcases readPairs_spec hbody with ⟨hcount, hsized, hjoin⟩
    refine ⟨_, ?_, hsized, ?_⟩
    · have hlt := Bytes.toNat_lt (rest.take 4)
      rw [hfour] at hlt
      rw [hcount]
      exact hlt
    · have hwritten : Bytes.ofNat 4 (Bytes.toNat (rest.take 4)) = rest.take 4 := by
        have hround := Bytes.ofNat_toNat (rest.take 4)
        rwa [hfour] at hround
      rw [hcount, hjoin, hwritten, List.append_assoc, List.cons_append, List.take_append_drop]

/-- What is not framed is refused, and the reader is the one that refuses it. -/
theorem decode_of_not_framed (h : ¬ Framed d) :
    ∃ fault, decode d = .error fault ∧ fault ≠ .tooMany := by
  cases hdecode : decode d with
  | ok m => exact absurd (framed_of_decode hdecode) h
  | error fault =>
    refine ⟨fault, rfl, ?_⟩
    rintro rfl
    unfold decode at hdecode
    -- no check of the reader reports the packing of a number
    split at hdecode
    · simp at hdecode
    split at hdecode
    · simp at hdecode
    simp only at hdecode
    split at hdecode
    · simp at hdecode
    split at hdecode
    · simp at hdecode
    · simp at hdecode

/-! ## Writing -/

theorem writePairs_of_sizes (h : ∀ p ∈ pairs, Sized p) : writePairs pairs = .ok (join pairs) := by
  induction pairs with
  | nil => rfl
  | cons p rest ih =>
    rcases h p List.mem_cons_self with ⟨ht, hf⟩
    have hsizes : ¬ (p.1.length ≠ idSize ∨ p.2.length ≠ idSize) := by
      rw [not_or]
      exact ⟨not_not_intro ht, not_not_intro hf⟩
    rw [writePairs, if_neg hsizes, ih fun q hq => h q (List.mem_cons_of_mem p hq)]
    rfl

theorem writePairs_of_badSize (h : ∃ p ∈ pairs, ¬ Sized p) :
    writePairs pairs = .error .badIdSize := by
  induction pairs with
  | nil => simp at h
  | cons p rest ih =>
    rw [writePairs]
    split
    · rfl
    · rename_i hsizes
      rw [not_or, not_not, not_not] at hsizes
      rcases h with ⟨q, hq, hbad⟩
      rcases List.mem_cons.1 hq with rfl | hq
      · exact absurd hsizes hbad
      · rw [ih ⟨q, hq, hbad⟩]
        rfl

/-- A map that fits the format is written in it. -/
theorem encode_of_sizes (hfew : m.entries.length < 2 ^ 32) (hsized : ∀ p ∈ m.entries, Sized p) :
    ∃ d, encode m = .ok d ∧ Written m.entries d := by
  have hroom : ¬ maxCount < m.entries.length := by
    rw [maxCount]
    omega
  refine ⟨_, ?_, hfew, hsized, rfl⟩
  rw [encode, if_neg hroom, writePairs_of_sizes hsized]
  rfl

/-- An id of another size is refused. -/
theorem encode_of_badSize (hbad : ∃ p ∈ m.entries, ¬ Sized p) :
    ∃ fault, encode m = .error fault ∧ (m.entries.length < 2 ^ 32 → fault = .badIdSize) := by
  rw [encode]
  split
  · rename_i hmany
    rw [maxCount] at hmany
    exact ⟨.tooMany, rfl, fun hfew => by omega⟩
  · rw [writePairs_of_badSize hbad]
    exact ⟨.badIdSize, rfl, fun _ => rfl⟩

/-! ## Both ways -/

/-- What was written has one reading. -/
theorem Written.unique {pairs' : List (Bytes × Bytes)} (h : Written pairs d)
    (h' : Written pairs' d) : pairs = pairs' := by
  have hread : ∀ {pairs : List (Bytes × Bytes)}, Written pairs d →
      9 + 64 * pairs.length = d.length ∧ pairs = readPairs pairs.length (d.drop headerSize) := by
    rintro pairs ⟨-, hsized, rfl⟩
    have hcount : (Bytes.ofNat 4 pairs.length).length = 4 := Bytes.length_ofNat 4 _
    have hheader : (magic ++ version :: Bytes.ofNat 4 pairs.length).length = headerSize := by
      simp [magic, hcount, headerSize]
    have hbody : (magic ++ version :: Bytes.ofNat 4 pairs.length ++ join pairs).drop headerSize =
        join pairs := List.drop_left' hheader
    rw [hbody, readPairs_join hsized]
    refine ⟨?_, rfl⟩
    simp only [magic, List.length_append, List.length_cons, List.length_nil, hcount,
      length_join hsized]
  rcases hread h with ⟨hlength, hpairs⟩
  rcases hread h' with ⟨hlength', hpairs'⟩
  have hsame : pairs.length = pairs'.length := by omega
  rw [hpairs, hpairs', hsame]

/-- The map of pairs that were written can be written. -/
theorem fits_ofPairs (h : Written pairs d) :
    (ofPairs pairs).entries.length < 2 ^ 32 ∧ ∀ p ∈ (ofPairs pairs).entries, Sized p := by
  have hmem : ∀ p ∈ (ofPairs pairs).entries, p ∈ pairs := fun p hp => Assoc.mem_of_mem_ofList hp
  constructor
  · have hkeys : ((ofPairs pairs).entries.map Prod.fst).Nodup := Assoc.nodup_ofList pairs
    have hsubset : (ofPairs pairs).entries.map Prod.fst ⊆ pairs.map Prod.fst :=
      List.map_subset _ hmem
    have hle := hkeys.length_le_of_subset hsubset
    rw [List.length_map, List.length_map] at hle
    exact Nat.lt_of_le_of_lt hle h.few
  · intro p hp
    exact h.sized p (hmem p hp)

/-- A map with distinct temporary ids is read back in its order. -/
theorem decode_of_written_nodup (h : Written m.entries d) (hkeys : (m.entries.map Prod.fst).Nodup) :
    decode d = .ok m := by
  rw [decode_of_written h, ofPairs, Assoc.ofList_of_nodup hkeys]

/-- A map has one pair for each of the distinct temporary ids that were written. -/
theorem length_of_written (hd : Written pairs d) (h : decode d = .ok m) :
    m.entries.length = (pairs.map Prod.fst).toFinset.card := by
  obtain rfl : m = ofPairs pairs := Except.ok.inj (h.symm.trans (decode_of_written hd))
  have hkeys : (pairs.map Prod.fst).toFinset = ((ofPairs pairs).entries.map Prod.fst).toFinset := by
    ext id
    rw [List.mem_toFinset, List.mem_toFinset]
    show _ ↔ id ∈ (Assoc.ofList pairs).map Prod.fst
    rw [Assoc.keys_ofList, List.mem_eraseDups]
  have hnodup : ((ofPairs pairs).entries.map Prod.fst).Nodup := Assoc.nodup_ofList pairs
  rw [hkeys, List.toFinset_card_of_nodup hnodup, List.length_map]

/-- What is read is a map of ids that have their size. -/
theorem fits_of_decode (h : decode d = .ok m) :
    (m.entries.map Prod.fst).Nodup ∧ ∀ p ∈ m.entries, Sized p := by
  rcases written_of_framed (framed_of_decode h) with ⟨pairs, hd⟩
  obtain rfl : m = ofPairs pairs := Except.ok.inj (h.symm.trans (decode_of_written hd))
  exact ⟨Assoc.nodup_ofList pairs, (fits_ofPairs hd).2⟩

/-- Of what is framed nothing can be cut off, and nothing can follow it: the header stays the
same. -/
theorem Framed.eq_of_isPrefix {d' : Bytes} (h : Framed d) (h' : Framed d') (hbegins : d <+: d') :
    d = d' := by
  rcases hbegins with ⟨extra, rfl⟩
  have hheader : 9 ≤ d.length := by
    have hlength := h.length
    omega
  have hnumber : ((d ++ extra).drop 5).take 4 = (d.drop 5).take 4 := by
    rw [List.drop_append_of_le_length (by omega), List.take_append_of_le_length]
    rw [List.length_drop]
    omega
  have hextra : extra.length = 0 := by
    have hboth := h'.length
    rw [hnumber, ← h.length, List.length_append] at hboth
    omega
  rw [List.eq_nil_of_length_eq_zero hextra, List.append_nil]

/-- Writing undoes reading exactly where no temporary id is repeated. -/
theorem encode_decode_iff (h : Written pairs d) :
    encode (ofPairs pairs) = .ok d ↔ (pairs.map Prod.fst).Nodup := by
  rcases fits_ofPairs h with ⟨hfew, hsized⟩
  rcases encode_of_sizes hfew hsized with ⟨b, hencode, hb⟩
  constructor
  · intro hd
    obtain rfl : b = d := Except.ok.inj (hencode.symm.trans hd)
    -- the bytes have one reading, so no pair was dropped
    have hsame : (ofPairs pairs).entries = pairs := hb.unique h
    have hkeys : ((ofPairs pairs).entries.map Prod.fst).Nodup := Assoc.nodup_ofList pairs
    rwa [hsame] at hkeys
  · intro hkeys
    have hsame : (ofPairs pairs).entries = pairs := Assoc.ofList_of_nodup hkeys
    rw [hencode, hb.bytes, h.bytes, hsame]

/-- The format is exact. A map with ids of the right size, and fewer of them than the header can
tell, is written in the format and read back in its order; cut short or extended it is refused. A
map with another id is refused. What is read is exactly what is framed, and anything else is
refused. What was read can be written and read again, and gives the same bytes exactly if no
temporary id was repeated: a repeated one keeps its first place and its last final id. -/
theorem codec_exact :
    (∀ m : ChannelMap, (m.entries.map Prod.fst).Nodup → m.entries.length < 2 ^ 32 →
      (∀ p ∈ m.entries, p.1.length = 32 ∧ p.2.length = 32) →
      ∃ d, encode m = .ok d ∧ Written m.entries d ∧ decode d = .ok m ∧
        ∀ d', d' ≠ d → d' <+: d ∨ d <+: d' → ∃ fault, decode d' = .error fault ∧ fault ≠ .tooMany) ∧
    (∀ m : ChannelMap, (∃ p ∈ m.entries, p.1.length ≠ 32 ∨ p.2.length ≠ 32) →
      ∃ fault, encode m = .error fault ∧ (m.entries.length < 2 ^ 32 → fault = .badIdSize)) ∧
    (∀ d, ((∃ m, decode d = .ok m) ↔ Framed d) ∧
      (¬ Framed d → ∃ fault, decode d = .error fault ∧ fault ≠ .tooMany)) ∧
    (∀ d m, decode d = .ok m → (∃ d', encode m = .ok d' ∧ decode d' = .ok m) ∧
      ∃ pairs, Written pairs d ∧ (encode m = .ok d ↔ (pairs.map Prod.fst).Nodup) ∧
        m.entries.map Prod.fst = (pairs.map Prod.fst).eraseDups ∧
        ∀ temporary, m.entries.lookup temporary = pairs.reverse.lookup temporary) := by
  refine ⟨?_, ?_, ?_, ?_⟩
  · intro m hkeys hfew hsized
    rcases encode_of_sizes hfew hsized with ⟨d, hencode, hd⟩
    refine ⟨d, hencode, hd, decode_of_written_nodup hd hkeys, ?_⟩
    intro d' hne hcut
    have hframed := framed_of_decode (decode_of_written hd)
    apply decode_of_not_framed
    intro hframed'
    rcases hcut with hcut | hcut
    · exact hne (hframed'.eq_of_isPrefix hframed hcut)
    · exact hne (hframed.eq_of_isPrefix hframed' hcut).symm
  · rintro m ⟨p, hp, hbad⟩
    refine encode_of_badSize ⟨p, hp, ?_⟩
    rintro ⟨ht, hf⟩
    exact hbad.elim (fun h => h ht) fun h => h hf
  · intro d
    refine ⟨⟨fun ⟨m, hm⟩ => framed_of_decode hm, ?_⟩, decode_of_not_framed⟩
    intro hframed
    rcases written_of_framed hframed with ⟨pairs, hd⟩
    exact ⟨_, decode_of_written hd⟩
  · intro d m hdecode
    rcases written_of_framed (framed_of_decode hdecode) with ⟨pairs, hd⟩
    obtain rfl : m = ofPairs pairs := Except.ok.inj (hdecode.symm.trans (decode_of_written hd))
    rcases fits_ofPairs hd with ⟨hfew, hsized⟩
    rcases encode_of_sizes hfew hsized with ⟨d', hencode, hd'⟩
    have hagain := decode_of_written_nodup hd' (Assoc.nodup_ofList pairs)
    exact ⟨⟨d', hencode, hagain⟩, pairs, hd, encode_decode_iff hd, Assoc.keys_ofList pairs,
      fun temporary => Assoc.lookup_ofList temporary pairs⟩

/-- An id whose bytes are all the same. -/
def sameBytes (x : UInt8) : Bytes := List.replicate 32 x

/-- A map of two pairs. -/
def twoPairs : ChannelMap := ⟨[(sameBytes 1, sameBytes 8), (sameBytes 2, sameBytes 9)]⟩

/-- Three pairs, of which the last has the temporary id of the first. -/
def repeatedId : Bytes :=
  magic ++ version :: Bytes.ofNat 4 3 ++
    join [(sameBytes 1, sameBytes 7), (sameBytes 2, sameBytes 9), (sameBytes 1, sameBytes 8)]

/-- A map of two pairs is written and read back, and refused when an id is empty. The same map is
read where its first temporary id is repeated, and then it is written in other bytes. -/
theorem repeated_id_read_back :
    ((twoPairs.entries.map Prod.fst).Nodup ∧
        ∃ d, encode twoPairs = .ok d ∧ decode d = .ok twoPairs) ∧
      encode ⟨([], sameBytes 1) :: twoPairs.entries⟩ = .error .badIdSize ∧ Framed repeatedId ∧
      decode repeatedId = .ok twoPairs ∧
      ∃ d, encode twoPairs = .ok d ∧ decode d = .ok twoPairs ∧ d ≠ repeatedId := by
  have hkeys : (twoPairs.entries.map Prod.fst).Nodup := by decide +kernel
  have hdecode : decode repeatedId = .ok twoPairs := by decide +kernel
  rcases codec_exact.1 twoPairs hkeys (by decide) (by decide +kernel) with ⟨d, hd, -, hread, -⟩
  rcases codec_exact.2.1 ⟨([], sameBytes 1) :: twoPairs.entries⟩
    ⟨_, List.mem_cons_self, Or.inl (by decide)⟩ with ⟨fault, hfault, hsize⟩
  rw [hsize (by decide)] at hfault
  rcases codec_exact.2.2.2 repeatedId twoPairs hdecode with ⟨⟨d', hd', hread'⟩, -⟩
  refine ⟨⟨hkeys, d, hd, hread⟩, hfault, (codec_exact.2.2.1 repeatedId).1.1 ⟨_, hdecode⟩, hdecode,
    d', hd', hread', ?_⟩
  intro hsame
  have hlength : (encode twoPairs).map List.length ≠ .ok repeatedId.length := by decide +kernel
  rw [hd', hsame] at hlength
  exact hlength rfl

end ChannelMap

end NodeStore
