import Mathlib.Data.List.Induction
import Mathlib.Data.List.Infix
import NodeStore.Proofs.Checks
import NodeStore.Proofs.Host

/-! # Every message is written once to each target

Calls to the loggers set up a configuration, ask for a logger, or log a message through one that was
asked for. The configuration in force is the last one that was forced, or else that of the first
call, which for a logger is the default (`inForce`).

A state is compared with what has been called (`Tracks`): the handlers are those of the
configuration in force, the console shows the messages that have passed, and every log file has in
addition to what was in it the messages that passed while it was in force.

* `Tracks.configure`, `Tracks.write`: what setting up and what a message preserves;
* `Tracks.run`: what any calls preserve;
* `each_target_gets_each_message`: what follows for handlers, console and files. -/

namespace NodeStore

namespace FileTree

variable {t t' : FileTree} {p q : Place}

/-- The bytes of a file. A place without one has none. -/
def contentAt (t : FileTree) (p : Place) : Bytes :=
  match t.entry? p with
  | some (.file b) => b
  | _ => []

/-- No database stands at a place. -/
def NoDatabaseAt (t : FileTree) (p : Place) : Prop :=
  ∀ tables, t.entry? p ≠ some (.database tables)

/-- What stands at a place has the same bytes, and is no database either. -/
theorem NoDatabaseAt.of_entry (hdatabase : t.NoDatabaseAt p) (h : t'.entry? p = t.entry? p) :
    t'.NoDatabaseAt p ∧ t'.contentAt p = t.contentAt p := by
  unfold NoDatabaseAt contentAt
  rw [h]
  exact ⟨hdatabase, rfl⟩

/-- A folder that was made has no bytes, as there were none before. -/
theorem NoDatabaseAt.of_madeFolders (hdatabase : t.NoDatabaseAt p) (h : MadeFolders t t') :
    t'.NoDatabaseAt p ∧ t'.contentAt p = t.contentAt p := by
  rcases h p with hsame | ⟨hnone, hfolder⟩
  · exact hdatabase.of_entry hsame
  · unfold NoDatabaseAt contentAt
    rw [hfolder, hnone]
    exact ⟨nofun, rfl⟩

/-- Where a file is or can be, adding to it makes it longer, and no other file. -/
theorem NoDatabaseAt.of_append (hdatabase : t.NoDatabaseAt q) (hfolder : t.entry? p ≠ some .folder)
    (content : Bytes) :
    FileTree.NoDatabaseAt (t.append p content) q ∧
      FileTree.contentAt (t.append p content) q =
        t.contentAt q ++ (if q = p then content else []) := by
  by_cases hq : q = p
  · subst hq
    have hroot : q ≠ [] := ne_root_of_entry rfl hfolder
    have hfile : FileTree.entry? (t.append q content) q =
        some (.file (t.contentAt q ++ content)) := by
      unfold append contentAt
      cases he : t.entry? q with
      | none => exact entry?_put_self hroot _
      | some e =>
        cases e with
        | folder => exact absurd he hfolder
        | file old => exact entry?_put_self hroot _
        | database tables => exact absurd he (hdatabase tables)
    rw [if_pos rfl]
    unfold NoDatabaseAt
    rw [hfile]
    refine ⟨nofun, ?_⟩
    show (match FileTree.entry? (t.append q content) q with | some (.file b) => b | _ => []) = _
    rw [hfile]
  · rw [if_neg hq, List.append_nil]
    exact hdatabase.of_entry (entry?_append_ne hq content)

theorem entry?_append_ne_folder (hfolder : t.entry? p ≠ some .folder) (content : Bytes) :
    FileTree.entry? (t.append p content) p ≠ some .folder := by
  have hroot : p ≠ [] := ne_root_of_entry rfl hfolder
  unfold append
  cases he : t.entry? p with
  | none => simp [entry?_put_self hroot]
  | some e =>
    cases e with
    | folder => exact absurd he hfolder
    | file old => simp [entry?_put_self hroot]
    | database tables => simp [he]

end FileTree

namespace Logging

/-! ## Calls -/

/-- A level, and the directory of the log file if there is one. -/
structure Setting where
  level : Int
  file : Option Path
deriving DecidableEq, Repr

/-- What is asked of the loggers. To configure again is to set up by force. A message is logged
through a logger that was asked for. -/
inductive Call where
  | setUp (setting : Setting) (force : Bool)
  | get
  | log (time : String) (line : LogLine)

/-- The configuration, the files, and what the console has shown. -/
structure State where
  logging : Logging := {}
  files : FileTree := {}
  console : String := ""

/-- Sets a configuration up. -/
def configure (workDir : Place) (s : State) (c : Setting) (force : Bool) :
    Except FileFault State :=
  let (made, files) := s.logging.setUp c.level c.file force s.files workDir
  made.map fun logging => { s with logging, files }

/-- Writes a message. -/
def State.write (s : State) (time : String) (line : LogLine) : State :=
  let (shown, files) := s.logging.write time line s.files
  { s with files, console := s.console ++ shown }

/-- What a call does, if it succeeds. -/
def step (workDir : Place) (s : State) : Call → Except FileFault State
  | .setUp c force => configure workDir s c force
  | .get => .ok { s with logging := s.logging.used }
  | .log time line => .ok (State.write { s with logging := s.logging.used } time line)

/-- What calls do one after the other, if all of them succeed. -/
def run (workDir : Place) (s : State) (calls : List Call) : Except FileFault State :=
  calls.foldlM (step workDir) s

namespace Call

/-- The configuration that a call sets up if there is none. -/
def setting : Call → Setting
  | setUp c _ => c
  | get | log .. => ⟨LogLevel.info, none⟩

/-- The configuration is set up even if there is one. -/
def forces : Call → Bool
  | setUp _ force => force
  | get | log .. => false

end Call

/-- The configuration in force after calls: the last one that was forced, or else the first. -/
def inForce (calls : List Call) : Option Setting :=
  ((calls.reverse.find? Call.forces).or calls.head?).map Call.setting

theorem inForce_concat (calls : List Call) (call : Call) : inForce (calls ++ [call]) =
    if call.forces = true ∨ inForce calls = none then some call.setting else inForce calls := by
  unfold inForce
  rw [List.reverse_concat, List.find?_cons]
  cases hforces : call.forces with
  | true => simp
  | false =>
    cases calls with
    | nil => simp
    | cons first rest => simp

/-! ## Configurations -/

namespace Setting

/-- The place of the log file. -/
def place (c : Setting) (workDir : Place) : Option Place :=
  c.file.map fun dir => (dir / fileName).placeFrom workDir

/-- One handler for the console, and one for the file if there is one. -/
def handlers (c : Setting) (workDir : Place) : List LogHandler :=
  ⟨.console, c.level⟩ :: (c.place workDir).toList.map fun place => ⟨.file place, c.level⟩

/-- A configuration that has been set up. -/
def logging (c : Setting) (workDir : Place) : Logging :=
  ⟨true, c.level, c.handlers workDir⟩

/-- The level that a message has to reach. -/
def effective (c : Setting) : Int :=
  if c.level = 0 then LogLevel.warning else c.level

/-- A message passes if its level is positive and reaches the effective level. -/
def Passes (c : Setting) (line : LogLine) : Prop :=
  0 < line.level ∧ c.effective ≤ line.level

instance (c : Setting) (line : LogLine) : Decidable (c.Passes line) :=
  inferInstanceAs (Decidable (_ ∧ _))

end Setting

/-- What is configured, if anything is. -/
def loggingOf (workDir : Place) : Option Setting → Logging
  | none => {}
  | some c => c.logging workDir

variable {workDir place : Place} {s s' : State} {start : FileTree} {c : Setting} {force : Bool}
  {current : Option Setting} {calls : List Call} {time : String} {line : LogLine}

/-- A message that passes is written by all handlers, any other by none. -/
theorem writers_logging (c : Setting) (workDir : Place) (line : LogLine) :
    (c.logging workDir).writers line = if c.Passes line then c.handlers workDir else [] := by
  have hpasses : (c.logging workDir).passes line.level = true ↔ c.Passes line := by
    unfold passes Setting.Passes
    rw [Bool.and_eq_true, decide_eq_true_eq, decide_eq_true_eq]
    rfl
  unfold writers
  by_cases h : c.Passes line
  · rw [if_pos h, if_pos (hpasses.2 h)]
    -- the level of the handlers is the configured one, which is zero or the effective one
    have hlevel : c.level ≤ line.level := by
      rcases h with ⟨hpositive, heffective⟩
      unfold Setting.effective at heffective
      split at heffective <;> omega
    have hall : ∀ handler ∈ c.handlers workDir, decide (handler.level ≤ line.level) = true := by
      intro handler hhandler
      have hsame : handler.level = c.level := by
        unfold Setting.handlers at hhandler
        rcases List.mem_cons.1 hhandler with rfl | hfile
        · rfl
        · rcases List.mem_map.1 hfile with ⟨place, -, rfl⟩
          rfl
      rw [hsame]
      exact decide_eq_true hlevel
    exact List.filter_eq_self.2 hall
  · rw [if_neg h, if_neg (mt hpasses.1 h)]

/-- What a message does to the console and the files. -/
theorem write_logging (c : Setting) (workDir : Place) (time : String) (line : LogLine)
    (files : FileTree) : (c.logging workDir).write time line files =
      if c.Passes line then
        (line.consoleText time,
          match c.place workDir with
          | none => files
          | some place => files.append place (Utf8.encode (line.fileText time)))
      else ("", files) := by
  unfold Logging.write
  rw [writers_logging]
  split
  · unfold Setting.handlers
    cases c.place workDir <;> simp
  · rfl

/-! ## Setting up -/

/-- What setting up a configuration does, if it succeeds. -/
theorem install_eq_ok {files files' : FileTree} {installed : Logging}
    (h : install c.level c.file files workDir = (.ok installed, files')) :
    installed = c.logging workDir ∧ ∃ made, files.MadeFolders made ∧
      (c.place workDir = none ∧ files' = made ∨
        ∃ place, c.place workDir = some place ∧ made.entry? place ≠ some .folder ∧
          files' = made.append place []) := by
  unfold install at h
  cases hfile : c.file with
  | none =>
    have hplace : c.place workDir = none := by rw [Setting.place, hfile]; rfl
    simp only [hfile, Prod.mk.injEq, Except.ok.injEq] at h
    refine ⟨?_, files, .refl files, Or.inl ⟨hplace, h.2.symm⟩⟩
    rw [← h.1, Setting.logging, Setting.handlers, hplace]
    rfl
  | some dir =>
    simp only [hfile] at h
    rcases hopen : openFile files workDir dir with ⟨r, made⟩
    cases r with
    | error fault => simp [hopen] at h
    | ok found =>
      simp only [hopen, Prod.mk.injEq, Except.ok.injEq] at h
      rcases openFile_eq_ok hopen with ⟨rfl, before, hmade, hfolder, hafter⟩
      have hplace : c.place workDir = some ((dir / fileName).placeFrom workDir) := by
        rw [Setting.place, hfile]
        rfl
      refine ⟨?_, before, hmade, Or.inr ⟨_, hplace, hfolder, h.2.symm.trans hafter⟩⟩
      rw [← h.1, Setting.logging, Setting.handlers, hplace]
      rfl

/-- A configuration is installed if it is forced or there is none. -/
theorem setUp_loggingOf (workDir : Place) (current : Option Setting) (c : Setting) (force : Bool)
    (files : FileTree) : (loggingOf workDir current).setUp c.level c.file force files workDir =
      if force = true ∨ current = none then install c.level c.file files workDir
      else (.ok (loggingOf workDir current), files) := by
  unfold setUp
  cases current <;> cases force <;> rfl

/-- A logger that is asked for sets the default up. -/
theorem configure_default (workDir : Place) (s : State) :
    configure workDir s ⟨LogLevel.info, none⟩ false =
      .ok { s with logging := s.logging.used } := by
  unfold configure setUp used
  cases hconfigured : s.logging.configured <;> rfl

/-! ## Messages -/

/-- A message, and the configuration in force when it was logged. -/
structure Message where
  setting : Setting
  time : String
  line : LogLine

/-- The configuration in force lets the message pass. -/
def Message.Passes (m : Message) : Prop :=
  m.setting.Passes m.line

instance (m : Message) : Decidable m.Passes :=
  inferInstanceAs (Decidable (Setting.Passes _ _))

/-- The message of the last call, if it logs one. -/
def lastMessage? (calls : List Call) : Option Message :=
  match calls.getLast? with
  | some (.log time line) => (inForce calls).map fun c => ⟨c, time, line⟩
  | _ => none

/-- The messages that calls log, in order. -/
def messages (calls : List Call) : List Message :=
  calls.inits.filterMap lastMessage?

/-- The messages that pass, as the console shows them. -/
def consoleOf (ms : List Message) : String :=
  String.join ((ms.filter fun m => m.Passes).map fun m => m.line.consoleText m.time)

/-- The messages that pass while a file is configured, as it has them. -/
def contentOf (workDir place : Place) (ms : List Message) : Bytes :=
  (ms.filter fun m => m.Passes ∧ m.setting.place workDir = some place).flatMap fun m =>
    Utf8.encode (m.line.fileText m.time)

theorem messages_concat (calls : List Call) (call : Call) :
    messages (calls ++ [call]) = messages calls ++ (lastMessage? (calls ++ [call])).toList := by
  unfold messages
  rw [List.inits_append, List.filterMap_append]
  rfl

theorem consoleOf_concat (ms : List Message) (m : Message) : consoleOf (ms ++ [m]) =
    consoleOf ms ++ if m.Passes then m.line.consoleText m.time else "" := by
  unfold consoleOf
  rw [List.filter_append]
  by_cases h : m.Passes
  · rw [if_pos h, List.filter_cons_of_pos (by simpa using h), List.map_append]
    exact List.foldl_append
  · rw [if_neg h, List.filter_cons_of_neg (by simpa using h), List.filter_nil, List.append_nil,
      String.append_empty]

theorem contentOf_concat (workDir place : Place) (ms : List Message) (m : Message) :
    contentOf workDir place (ms ++ [m]) = contentOf workDir place ms ++
      if m.Passes ∧ m.setting.place workDir = some place then Utf8.encode (m.line.fileText m.time)
      else [] := by
  unfold contentOf
  rw [List.filter_append, List.flatMap_append]
  by_cases h : m.Passes ∧ m.setting.place workDir = some place
  · rw [if_pos h, List.filter_cons_of_pos (by simpa using h), List.filter_nil,
      List.flatMap_singleton]
  · rw [if_neg h, List.filter_cons_of_neg (by simpa using h), List.filter_nil, List.flatMap_nil]

/-! ## Calls one after the other -/

/-- A state after calls that left a configuration in force and logged messages, from files at the
start. -/
structure Tracks (workDir : Place) (start : FileTree) (current : Option Setting)
    (ms : List Message) (s : State) : Prop where
  logging : s.logging = loggingOf workDir current
  opened : ∀ c, current = some c → ∀ place, c.place workDir = some place →
    s.files.entry? place ≠ some .folder
  console : s.console = consoleOf ms
  content : ∀ place, start.NoDatabaseAt place → s.files.NoDatabaseAt place ∧
    s.files.contentAt place = start.contentAt place ++ contentOf workDir place ms

variable {ms : List Message}

theorem tracks_start (workDir : Place) (start : FileTree) :
    Tracks workDir start none [] { files := start } where
  logging := rfl
  opened := nofun
  console := rfl
  content _ hplace := ⟨hplace, (List.append_nil _).symm⟩

/-- Setting up changes what is in force if it is to be changed, and no content. -/
theorem Tracks.configure (h : Tracks workDir start current ms s)
    (hstep : Logging.configure workDir s c force = .ok s') :
    Tracks workDir start (if force = true ∨ current = none then some c else current) ms s' := by
  unfold Logging.configure at hstep
  rw [h.logging, setUp_loggingOf] at hstep
  by_cases hnew : force = true ∨ current = none
  · rw [if_pos hnew] at hstep ⊢
    rcases hinstall : install c.level c.file s.files workDir with ⟨made, files⟩
    rw [hinstall] at hstep
    rcases map_eq_ok_iff.1 hstep with ⟨installed, rfl, rfl⟩
    rcases install_eq_ok hinstall with ⟨rfl, before, hmade, hfiles⟩
    refine ⟨rfl, ?_, h.console, ?_⟩
    · intro c' hc' place hplace
      obtain rfl := Option.some.inj hc'
      rcases hfiles with ⟨hnone, -⟩ | ⟨found, hfound, hfolder, rfl⟩
      · rw [hnone] at hplace
        simp at hplace
      · rw [hfound, Option.some.injEq] at hplace
        subst hplace
        exact FileTree.entry?_append_ne_folder hfolder []
    · intro place hplace
      rcases h.content place hplace with ⟨hdatabase, hcontent⟩
      rcases hdatabase.of_madeFolders hmade with ⟨hdatabase', hcontent'⟩
      rw [← hcontent, ← hcontent']
      rcases hfiles with ⟨-, rfl⟩ | ⟨found, -, hfolder, rfl⟩
      · exact ⟨hdatabase', rfl⟩
      · rcases hdatabase'.of_append hfolder [] with ⟨hdatabase'', hcontent''⟩
        refine ⟨hdatabase'', ?_⟩
        rw [hcontent'', ite_self, List.append_nil]
  · rw [if_neg hnew] at hstep ⊢
    obtain rfl := Except.ok.inj hstep
    exact ⟨rfl, h.opened, h.console, h.content⟩

/-- A message that does not pass leaves console and files as they are. -/
theorem Tracks.write_of_not_passes (h : Tracks workDir start (some c) ms s)
    (hpasses : ¬ c.Passes line) :
    Tracks workDir start (some c) (ms ++ [⟨c, time, line⟩]) (s.write time line) := by
  have hlogging : s.logging = c.logging workDir := h.logging
  have hwrite : s.write time line = s := by
    unfold State.write
    rw [hlogging, write_logging, if_neg hpasses, ← hlogging]
    simp only [String.append_empty]
  have hconsole : consoleOf (ms ++ [⟨c, time, line⟩]) = consoleOf ms := by
    have hnot : ¬ Message.Passes ⟨c, time, line⟩ := hpasses
    rw [consoleOf_concat, if_neg hnot, String.append_empty]
  have hcontent : ∀ place, contentOf workDir place (ms ++ [⟨c, time, line⟩]) =
      contentOf workDir place ms := by
    intro place
    rw [contentOf_concat, if_neg fun hboth => hpasses hboth.1, List.append_nil]
  rw [hwrite]
  refine ⟨h.logging, h.opened, h.console.trans hconsole.symm, ?_⟩
  intro place hplace
  rw [hcontent]
  exact h.content place hplace

/-- A message that passes is added to the console and to the file. -/
theorem Tracks.write_of_passes (h : Tracks workDir start (some c) ms s)
    (hpasses : c.Passes line) :
    Tracks workDir start (some c) (ms ++ [⟨c, time, line⟩]) (s.write time line) := by
  have hlogging : s.logging = c.logging workDir := h.logging
  have hconsole : consoleOf (ms ++ [⟨c, time, line⟩]) = s.console ++ line.consoleText time := by
    rw [consoleOf_concat, ← h.console]
    exact congrArg (s.console ++ ·) (if_pos hpasses)
  have hcontent : ∀ place, contentOf workDir place (ms ++ [⟨c, time, line⟩]) =
      contentOf workDir place ms ++
        if c.place workDir = some place then Utf8.encode (line.fileText time) else [] := by
    intro place
    rw [contentOf_concat]
    congr 1
    exact if_congr (and_iff_right hpasses) rfl rfl
  unfold State.write
  rw [hlogging, write_logging, if_pos hpasses]
  cases hfile : c.place workDir with
  | none =>
    refine ⟨rfl, ?_, hconsole.symm, ?_⟩
    · intro c' hc' place hplace
      obtain rfl := Option.some.inj hc'
      rw [hfile] at hplace
      simp at hplace
    · intro place hplace
      rw [hcontent, hfile, if_neg (by simp), List.append_nil]
      exact h.content place hplace
  | some file =>
    have hfolder := h.opened c rfl file hfile
    refine ⟨rfl, ?_, hconsole.symm, ?_⟩
    · intro c' hc' place hplace
      obtain rfl := Option.some.inj hc'
      rw [hfile, Option.some.injEq] at hplace
      subst hplace
      exact FileTree.entry?_append_ne_folder hfolder _
    · intro place hplace
      rcases h.content place hplace with ⟨hdatabase, hbefore⟩
      rcases hdatabase.of_append hfolder (Utf8.encode (line.fileText time)) with
        ⟨hdatabase', hafter⟩
      refine ⟨hdatabase', hafter.trans ?_⟩
      rw [hbefore, hcontent, hfile, List.append_assoc]
      simp only [Option.some.injEq, eq_comm]

/-- What one call preserves. -/
theorem Tracks.step {call : Call} (h : Tracks workDir start (inForce calls) (messages calls) s)
    (hstep : Logging.step workDir s call = .ok s') :
    Tracks workDir start (inForce (calls ++ [call])) (messages (calls ++ [call])) s' := by
  have hasked := h.configure (configure_default workDir s)
  rw [messages_concat]
  cases call with
  | setUp c force =>
    have hmessage : lastMessage? (calls ++ [.setUp c force]) = none := by
      rw [lastMessage?, List.getLast?_concat]
    rw [hmessage, Option.toList_none, List.append_nil, inForce_concat]
    exact h.configure hstep
  | get =>
    have hmessage : lastMessage? (calls ++ [.get]) = none := by
      rw [lastMessage?, List.getLast?_concat]
    obtain rfl := Except.ok.inj hstep
    rw [hmessage, Option.toList_none, List.append_nil, inForce_concat]
    exact hasked
  | log time line =>
    obtain rfl := Except.ok.inj hstep
    obtain ⟨c, hc⟩ : ∃ c, inForce (calls ++ [.log time line]) = some c := by
      rw [inForce_concat]
      cases inForce calls with
      | none => exact ⟨_, rfl⟩
      | some c => exact ⟨c, rfl⟩
    have hmessage : lastMessage? (calls ++ [.log time line]) = some ⟨c, time, line⟩ := by
      rw [lastMessage?, List.getLast?_concat]
      simp only [hc, Option.map_some]
    rw [inForce_concat] at hc
    rw [hmessage, Option.toList_some, inForce_concat, hc]
    have hready : Tracks workDir start (some c) (messages calls)
        { s with logging := s.logging.used } := by
      rw [← hc]
      exact hasked
    by_cases hpasses : c.Passes line
    · exact hready.write_of_passes hpasses
    · exact hready.write_of_not_passes hpasses

/-- What any calls preserve. -/
theorem Tracks.run (h : Logging.run workDir { files := start } calls = .ok s) :
    Tracks workDir start (inForce calls) (messages calls) s := by
  induction calls using List.reverseRecOn generalizing s with
  | nil =>
    obtain rfl := Except.ok.inj h
    exact tracks_start workDir start
  | append_singleton calls call ih =>
    unfold Logging.run at h ih
    rw [List.foldlM_append] at h
    cases hbefore : calls.foldlM (Logging.step workDir) ({ files := start } : State) with
    | error fault => simp [hbefore, bind, Except.bind] at h
    | ok before =>
      rw [hbefore, ok_bind, List.foldlM_cons] at h
      cases hlast : Logging.step workDir before call with
      | error fault => simp [hlast, bind, Except.bind] at h
      | ok after =>
        rw [hlast] at h
        obtain rfl : after = s := Except.ok.inj h
        exact (ih hbefore).step hlast

/-- A configuration is in force after any call. -/
theorem exists_inForce (hcalls : calls ≠ []) : ∃ c, inForce calls = some c := by
  rcases List.eq_nil_or_concat calls with rfl | ⟨before, call, rfl⟩
  · exact absurd rfl hcalls
  · rw [List.concat_eq_append, inForce_concat]
    split
    · exact ⟨_, rfl⟩
    · rename_i hkept
      exact Option.ne_none_iff_exists'.1 fun hnone => hkept (Or.inr hnone)

/-- Every message is written once to each target that is configured.

After calls that succeeded, of which there was one at least:

* the handlers are one for the console, and one for a file exactly if the configuration in force has
  one, all at its level;
* setting up what is not forced, and asking for a logger, changes nothing;
* a message is written by each of the handlers if its level is positive and reaches the effective
  level, else by none;
* so the console has shown the messages that passed, in order, and a file has in addition to what
  was in it those that passed while it was configured. -/
theorem each_target_gets_each_message (workDir : Place) (start : FileTree) (calls : List Call)
    (s : State) (hrun : run workDir { files := start } calls = .ok s) (hcalls : calls ≠ []) :
    ∃ c, inForce calls = some c ∧
      s.logging = ⟨true, c.level, ⟨.console, c.level⟩ ::
        (c.place workDir).toList.map fun place => ⟨.file place, c.level⟩⟩ ∧
      (∀ other, configure workDir s other false = .ok s) ∧
      Logging.step workDir s .get = .ok s ∧
      (∀ line, s.logging.writers line =
        if 0 < line.level ∧ (if c.level = 0 then LogLevel.warning else c.level) ≤ line.level then
          s.logging.handlers
        else []) ∧
      s.console = consoleOf (messages calls) ∧
      ∀ place, start.NoDatabaseAt place → s.files.contentAt place =
        start.contentAt place ++ contentOf workDir place (messages calls) := by
  have htracks := Tracks.run hrun
  rcases exists_inForce hcalls with ⟨c, hc⟩
  have hlogging : s.logging = c.logging workDir := by
    rw [htracks.logging, hc]
    rfl
  have hkept : ∀ other, configure workDir s other false = .ok s := by
    intro other
    rcases s with ⟨logging, files, console⟩
    obtain rfl : logging = c.logging workDir := hlogging
    rfl
  refine ⟨c, hc, hlogging, hkept, ?_, ?_, htracks.console, ?_⟩
  · -- a logger that is asked for sets up the default, which is not forced
    exact (configure_default workDir s).symm.trans (hkept _)
  · intro line
    rw [hlogging]
    exact writers_logging c workDir line
  · intro place hplace
    exact (htracks.content place hplace).2

/-- A file that is configured, given up and configured again has what was in it and the messages of
both times that passed; the console has shown all that passed. -/
theorem file_comes_back :
    ∃ s, run [] { files := ⟨[(["d"], .folder), (["d", "lnstore.log"], .file [7])]⟩ }
        [.log "1" ⟨20, "a", "A"⟩, .setUp ⟨10, some ⟨.relative, ["d"]⟩⟩ true, .get,
          .log "2" ⟨10, "a", "B"⟩, .setUp ⟨30, none⟩ true, .log "3" ⟨40, "a", "C"⟩,
          .setUp ⟨0, some ⟨.relative, ["d"]⟩⟩ true, .log "4" ⟨20, "a", "D"⟩,
          .log "5" ⟨30, "a", "E"⟩] = .ok s ∧
      s.files.contentAt ["d", "lnstore.log"] =
        7 :: Utf8.encode "2 [lnstore.a] DEBUG    B\n5 [lnstore.a] WARNING  E\n" ∧
      s.console = "\x1b[32m1 [lnstore.a] INFO    \x1b[0m A\x1b[0m\n" ++
        "\x1b[36m2 [lnstore.a] DEBUG   \x1b[0m B\x1b[0m\n" ++
        "\x1b[31m3 [lnstore.a] ERROR   \x1b[0m C\x1b[0m\n" ++
        "\x1b[33m5 [lnstore.a] WARNING \x1b[0m E\x1b[0m\n" := by
  generalize hcalls : [Call.log "1" ⟨20, "a", "A"⟩, .setUp ⟨10, some ⟨.relative, ["d"]⟩⟩ true, .get,
    .log "2" ⟨10, "a", "B"⟩, .setUp ⟨30, none⟩ true, .log "3" ⟨40, "a", "C"⟩,
    .setUp ⟨0, some ⟨.relative, ["d"]⟩⟩ true, .log "4" ⟨20, "a", "D"⟩,
    .log "5" ⟨30, "a", "E"⟩] = calls
  generalize hstart : (⟨[(["d"], .folder), (["d", "lnstore.log"], .file [7])]⟩ : FileTree) = start
  have hsome : (run [] { files := start } calls).toOption.isSome = true := by
    subst hcalls hstart
    decide +kernel
  obtain ⟨s, hs⟩ := Option.isSome_iff_exists.1 hsome
  have hrun := toOption_eq_some_iff.1 hs
  obtain ⟨-, -, -, -, -, -, hconsole, hfile⟩ :=
    each_target_gets_each_message [] start calls s hrun (by rw [← hcalls]; simp)
  refine ⟨s, hrun, ?_, ?_⟩
  · rw [hfile]
    · subst hcalls hstart
      decide +kernel
    · subst hstart
      nofun
  · rw [hconsole]
    subst hcalls
    decide +kernel

/-- A level below zero can be configured and reached, but such a message is never written. -/
theorem negative_level_is_not_written :
    ∃ s, run [] {} [.setUp ⟨-5, none⟩ false, .log "t" ⟨-1, "x", "m"⟩] = .ok s ∧
      s.logging.effectiveLevel ≤ -1 ∧ s.console = "" :=
  ⟨_, rfl, by decide, rfl⟩

end Logging

end NodeStore
