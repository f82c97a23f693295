import NodeStore.Proofs.Node.ChannelFile
import NodeStore.Proofs.Node.Restart
import NodeStore.Proofs.Table.Replay
import NodeStore.Proofs.Text.Line

/-! # What starts make of settings and channel ids

A start that succeeds copies the texts of the settings' files into the store, moves the channel map
into it, and writes the settings over their files. `Contents` is what it looks at for that, and
`Contents.started` what it makes of it. A start may change the contents, and so may the next one,
since a value that was written is read again without the blanks around it and with other line
endings. After that they are settled.

* `Settled.started`: a start leaves settled contents as they are;
* `settled_started_started`: after two starts contents are settled. -/

namespace NodeStore

/-- What a host holds of settings and channel ids: their tables, and what stands at the places of
the files of settings and of the channel map. -/
structure Contents where
  settings : Table (Cell × Cell)
  channels : Table (Cell × Cell)
  files : String → Option FileEntry
  container : Option FileEntry

theorem settingText_settingText (text : String) :
    settingText (settingText text) = settingText text :=
  Text.strip_withLineFeeds text

namespace Contents

variable {x : Contents} {fails : Bool} {key : String} {keys : List String} {m : ChannelMap}

/-! ## Starts -/

/-- The text that is read from the file of a setting. -/
def texts (x : Contents) (key : String) : Option String := textAt (x.files key)

/-- The texts of the files are copied. -/
def migrated (x : Contents) : Contents :=
  { x with settings := x.settings.migratedAll x.texts Publication.keys }

/-- The map that is read from the file of the channel map. -/
def channelMap (x : Contents) : Option ChannelMap :=
  (x.container.bind FileEntry.bytes?).bind fun b => (ChannelMap.decode b).toOption

/-- The channel map is moved. Its file stays if removing files fails. -/
def moved (fails : Bool) (x : Contents) : Contents :=
  match x.channelMap with
  | some m =>
    { x with
      channels := Table.upsertAll (m.entries.map Store.cellsOf) x.channels
      container := if fails then x.container else none }
  | none => x

/-- What stands at the place of a setting's file after the setting was published. -/
def published (x : Contents) (key : String) : Option FileEntry :=
  match x.settings.valueOf? (.text key) with
  | some (.text value) => some (.file (Utf8.encode value))
  | _ => x.files key

/-- Settings are published. -/
def publishedAll (keys : List String) (x : Contents) : Contents :=
  { x with files := fun key => if key ∈ keys then x.published key else x.files key }

/-- A start has succeeded. -/
def started (fails : Bool) (x : Contents) : Contents :=
  (x.migrated.moved fails).publishedAll Publication.keys

@[simp] theorem moved_settings : (x.moved fails).settings = x.settings := by
  unfold moved
  split <;> rfl

@[simp] theorem moved_files : (x.moved fails).files = x.files := by
  unfold moved
  split <;> rfl

@[simp] theorem started_settings :
    (x.started fails).settings = x.settings.migratedAll x.texts Publication.keys :=
  moved_settings

/-- Settings and channel ids have nothing to do with each other. -/
theorem started_channels (x : Contents) (fails : Bool) :
    (x.started fails).channels = (x.moved fails).channels ∧
      (x.started fails).container = (x.moved fails).container := by
  show (x.migrated.moved fails).channels = _ ∧ (x.migrated.moved fails).container = _
  have hmap : x.migrated.channelMap = x.channelMap := rfl
  unfold moved
  rw [hmap]
  cases x.channelMap <;> exact ⟨rfl, rfl⟩

/-- The file of a setting after a start has the value that its row has then, if that is text. -/
theorem started_files (x : Contents) (fails : Bool) (hkey : key ∈ Publication.keys) :
    (x.started fails).files key =
      match (x.started fails).settings.valueOf? (.text key) with
      | some (.text value) => some (.file (Utf8.encode value))
      | _ => x.files key := by
  show (if key ∈ Publication.keys then (x.migrated.moved fails).published key else _) = _
  rw [if_pos hkey, started_settings, published, moved_settings, moved_files]
  rfl

/-- Where a row is no text nothing is written. -/
theorem publishedAll_of_not_text
    (hrow : ∀ value, x.settings.valueOf? (.text key) ≠ some (.text value)) :
    x.publishedAll [key] = x := by
  have hkey : x.published key = x.files key := by
    unfold published
    split
    · rename_i value h
      exact absurd h (hrow value)
    · rfl
  have hfiles : (fun k => if k ∈ [key] then x.published k else x.files k) = x.files := by
    funext k
    split
    · rename_i hk
      rw [List.mem_singleton.1 hk, hkey]
    · rfl
  unfold publishedAll
  rw [hfiles]

theorem publishedAll_nil (x : Contents) : x.publishedAll [] = x := by
  simp [publishedAll]

/-- What was published is published again as it is. -/
theorem published_publishedAll (x : Contents) (keys : List String) (k : String) :
    (x.publishedAll keys).published k = x.published k := by
  cases hrow : x.settings.valueOf? (.text k) with
  | none => simp [published, publishedAll, hrow]
  | some value => cases value <;> simp [published, publishedAll, hrow]

/-- Keys are published one after the other. -/
theorem publishedAll_cons (key : String) (rest : List String) (x : Contents) :
    (x.publishedAll [key]).publishedAll rest = x.publishedAll (key :: rest) := by
  have hfiles : ∀ k, (if k ∈ rest then (x.publishedAll [key]).published k
      else (x.publishedAll [key]).files k) =
      if k ∈ key :: rest then x.published k else x.files k := by
    intro k
    rw [published_publishedAll]
    by_cases hrest : k ∈ rest
    · rw [if_pos hrest, if_pos (List.mem_cons_of_mem key hrest)]
    · by_cases hkey : k = key
      · simp [publishedAll, hkey]
      · simp [publishedAll, hrest, hkey]
  exact congrArg (fun files => { x with files }) (funext hfiles)

/-- A map is read from a file only, and from no database. -/
theorem of_channelMap (h : x.channelMap = some m) :
    ∃ b, x.container = some (.file b) ∧ ChannelMap.decode b = .ok m := by
  have hmark : ChannelMap.decode FileTree.databaseMark = .error .badMagic := rfl
  unfold channelMap at h
  rcases Option.bind_eq_some_iff.1 h with ⟨b, hb, hdecode⟩
  rcases Option.bind_eq_some_iff.1 hb with ⟨e, he, hbytes⟩
  cases hok : ChannelMap.decode b with
  | error fault => simp [hok, Except.toOption] at hdecode
  | ok m' =>
    simp only [hok, Except.toOption, Option.some.injEq] at hdecode
    subst hdecode
    cases e with
    | folder => simp [FileEntry.bytes?] at hbytes
    | file content =>
      obtain rfl : content = b := by simpa [FileEntry.bytes?] using hbytes
      exact ⟨content, he, hok⟩
    | database tables =>
      obtain rfl : FileTree.databaseMark = b := by simpa [FileEntry.bytes?] using hbytes
      rw [hmark] at hok
      simp at hok

/-! ## Settled contents -/

/-- The files say what the tables have already. -/
structure Settled (fails : Bool) (x : Contents) : Prop where
  settings : ∀ key ∈ Publication.keys, ∀ text, x.texts key = some text →
    x.settings.Has (.text key) (.text (settingText text))
  channels : ∀ m, x.channelMap = some m →
    fails = true ∧ ∀ p ∈ m.entries, x.channels.Has (Store.cellsOf p).1 (Store.cellsOf p).2
  files : ∀ key ∈ Publication.keys, x.published key = x.files key

theorem migratedAll_of_has {texts : String → Option String} {t : Table (Cell × Cell)}
    (h : ∀ key ∈ keys, ∀ text, texts key = some text →
      t.Has (.text key) (.text (settingText text))) : t.migratedAll texts keys = t := by
  induction keys with
  | nil => rfl
  | cons key rest ih =>
    have hsame : t.migrated key (texts key) = t := by
      cases htext : texts key with
      | none => rfl
      | some text => exact Table.upsert_of_has (h key List.mem_cons_self text htext)
    show (t.migrated key (texts key)).migratedAll texts rest = t
    rw [hsame]
    exact ih fun k hk => h k (List.mem_cons_of_mem key hk)

/-- A start leaves settled contents as they are. -/
theorem Settled.started (h : x.Settled fails) : x.started fails = x := by
  have hmigrated : x.migrated = x := by
    unfold migrated
    rw [migratedAll_of_has h.settings]
  have hmoved : x.moved fails = x := by
    unfold moved
    cases hmap : x.channelMap with
    | none => rfl
    | some m =>
      rcases h.channels m hmap with ⟨rfl, hhas⟩
      have hsame : Table.upsertAll (m.entries.map Store.cellsOf) x.channels = x.channels := by
        refine Table.upsertAll_of_has fun p hp => ?_
        rcases List.mem_map.1 hp with ⟨q, hq, rfl⟩
        exact hhas q hq
      simp only [hsame, if_true]
  have hpublished : x.publishedAll Publication.keys = x := by
    unfold publishedAll
    have hfiles : (fun key => if key ∈ Publication.keys then x.published key else x.files key) =
        x.files := by
      funext key
      split
      · rename_i hkey
        exact h.files key hkey
      · rfl
    rw [hfiles]
  unfold Contents.started
  rw [hmigrated, hmoved, hpublished]

/-- The migrated table has what was read from the files. -/
theorem has_migratedAll {texts : String → Option String} {t : Table (Cell × Cell)} {text : String}
    (hkey : key ∈ keys) (htext : texts key = some text) :
    (t.migratedAll texts keys).Has (.text key) (.text (settingText text)) := by
  -- once it has that, later files leave it so
  have hstay : ∀ (rest : List String) (u : Table (Cell × Cell)),
      u.Has (.text key) (.text (settingText text)) →
      (u.migratedAll texts rest).Has (.text key) (.text (settingText text)) := by
    intro rest
    induction rest with
    | nil => exact fun _ hu => hu
    | cons k rest ih =>
      intro u hu
      refine ih (u.migrated k (texts k)) ?_
      by_cases hk : key = k
      · subst hk
        rw [htext]
        exact Table.has_upsert_self ..
      · cases texts k with
        | none => exact hu
        | some other => exact Table.has_upsert_ne (by simpa using hk) hu
  induction keys generalizing t with
  | nil => simp at hkey
  | cons k rest ih =>
    rcases List.mem_cons.1 hkey with rfl | hrest
    · refine hstay rest (t.migrated key (texts key)) ?_
      rw [htext]
      exact Table.has_upsert_self ..
    · exact ih hrest

theorem started_valueOf (x : Contents) (fails : Bool) (hkey : key ∈ Publication.keys) :
    (x.started fails).settings.valueOf? (.text key) =
      migratedValue (x.texts key) (x.settings.valueOf? (.text key)) := by
  rw [started_settings, Table.valueOf_migratedAll, if_pos hkey]

/-- The file of a setting whose row is no text after a start has no text either. -/
theorem started_texts_none (hkey : key ∈ Publication.keys)
    (hrow : ∀ v, (x.started fails).settings.valueOf? (.text key) ≠ some (.text v)) :
    (x.started fails).texts key = none := by
  have hfile : (x.started fails).files key = x.files key := by
    rw [started_files x fails hkey]
    split
    · rename_i v h
      exact absurd h (hrow v)
    · rfl
  cases hbefore : x.texts key with
  | none => exact (congrArg textAt hfile).trans hbefore
  | some before =>
    -- a text that was there is in the row now
    have hvalue := started_valueOf x fails hkey
    rw [hbefore] at hvalue
    exact absurd hvalue (hrow _)

/-- After a start a text is read from the file of a setting exactly if it is the value of its
row. -/
theorem started_texts (hkey : key ∈ Publication.keys) (text : String) :
    (x.started fails).texts key = some text ↔
      (x.started fails).settings.valueOf? (.text key) = some (.text text) := by
  by_cases hrow : ∃ v, (x.started fails).settings.valueOf? (.text key) = some (.text v)
  · rcases hrow with ⟨v, hrow⟩
    rw [texts, started_files x fails hkey, hrow, textAt_encode]
    simp
  · rw [started_texts_none hkey (not_exists.1 hrow)]
    exact ⟨by simp, fun h => absurd ⟨text, h⟩ hrow⟩

/-- After a start that found channel ids the table has them. -/
theorem has_moved (hmap : x.channelMap = some m) {p : Bytes × Bytes} (hp : p ∈ m.entries) :
    (x.moved fails).channels.Has (Store.cellsOf p).1 (Store.cellsOf p).2 := by
  rcases of_channelMap hmap with ⟨b, -, hdecode⟩
  unfold moved
  rw [hmap]
  exact Table.has_upsertAll (Store.nodup_cellsOf hdecode) (List.mem_map_of_mem hp)

/-- After a start a channel map is left only if files cannot be removed, and its pairs are in the
table. -/
theorem settled_channels (x : Contents) (fails : Bool) :
    ∀ m, (x.started fails).channelMap = some m → fails = true ∧ ∀ p ∈ m.entries,
      (x.started fails).channels.Has (Store.cellsOf p).1 (Store.cellsOf p).2 := by
  intro m hmap
  rcases started_channels x fails with ⟨hchannels, hcontainer⟩
  have hleft : (x.started fails).channelMap = (x.moved fails).channelMap := by
    unfold channelMap
    rw [hcontainer]
  rw [hleft] at hmap
  cases hbefore : x.channelMap with
  | none =>
    rw [moved, hbefore] at hmap
    rw [hbefore] at hmap
    simp at hmap
  | some m' =>
    cases fails with
    | false =>
      rw [moved, hbefore] at hmap
      simp [channelMap] at hmap
    | true =>
      have hsame : (x.moved true).channelMap = x.channelMap := by
        rw [moved, hbefore]
        exact hbefore
      rw [hsame, hbefore] at hmap
      obtain rfl := Option.some.inj hmap
      refine ⟨rfl, fun p hp => ?_⟩
      rw [hchannels]
      exact has_moved hbefore hp

/-- After two starts contents are settled. -/
theorem settled_started_started (x : Contents) (fails : Bool) :
    ((x.started fails).started fails).Settled fails where
  settings := by
    intro key hkey text htext
    rw [started_texts hkey, started_valueOf _ _ hkey] at htext
    -- the second start has read what the first one wrote
    cases hread : (x.started fails).texts key with
    | some first =>
      rw [hread] at htext
      obtain rfl : settingText first = text := by simpa [migratedValue] using htext
      rw [settingText_settingText, started_settings]
      exact has_migratedAll hkey hread
    | none =>
      -- a row without a file is no text
      rw [hread] at htext
      have hwritten := (started_texts hkey text).2 htext
      rw [hread] at hwritten
      simp at hwritten
  channels := settled_channels _ fails
  files key hkey := by
    let y := (x.started fails).migrated.moved fails
    show (y.publishedAll Publication.keys).published key = if key ∈ Publication.keys then _ else _
    rw [published_publishedAll, if_pos hkey]

end Contents

end NodeStore
