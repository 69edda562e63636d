import DocIndex.Command
import DocIndex.Proofs.Index.Writers
import Mathlib.Data.List.TakeWhile

/-!
What the commands do to the index of a directory, one after the other. An addition commits the
documents of its file together, in the order of the lines, or it commits nothing: a line that cannot
be read is as good as no file at all. Asking changes nothing. So the number of documents is always
the sum of what the additions since the creation told to have added.
-/

namespace DocIndex

open Storage

/-- A handle for writing on a directory, and the documents that wait to be committed. -/
def Index.writer (directory : String) (settings : Settings) (schema : Schema)
    (committed buffer : List Document) : Index :=
  ⟨directory, settings, some ⟨schema, committed, some buffer⟩⟩

namespace Command

open Index (Present)

def filledLines (lines : List String) : List String :=
  lines.filter fun line => !Text.isBlank line

/-- The documents of the lines that are documents, in order. -/
def documentsOf (schema : Schema) (strict : Bool) (lines : List String) : List Document :=
  (filledLines lines).filterMap fun line => (Document.ofText schema line strict).toOption

section

variable {settings : Settings} {directory : String} {schema : Schema} {committed : List Document}

/-! Adding lines to a handle -/

theorem add_writer (line : String) (buffer : List Document) :
    (Index.writer directory settings schema committed buffer).add line =
      match Document.ofText schema line settings.strict with
      | .error fault => .error (.document fault)
      | .ok document =>
          .ok (Index.writer directory settings schema committed (buffer ++ [document])) := by
  rfl

theorem filledLines_blank {line : String} (hblank : Text.isBlank line = true)
    (rest : List String) : filledLines (line :: rest) = filledLines rest := by
  simp [filledLines, hblank]

theorem filledLines_filled {line : String} (hfilled : ¬Text.isBlank line = true)
    (rest : List String) : filledLines (line :: rest) = line :: filledLines rest := by
  simp [filledLines, hfilled]

theorem documentsOf_filled {line : String} (hfilled : ¬Text.isBlank line = true) (strict : Bool)
    (rest : List String) :
    documentsOf schema strict (line :: rest) =
      (Document.ofText schema line strict).toOption.toList ++ documentsOf schema strict rest := by
  rw [documentsOf, filledLines_filled hfilled, List.filterMap_cons, documentsOf]
  cases Document.ofText schema line strict <;> rfl

/-- Lines that can all be read leave their documents in the buffer, and each is counted once. -/
theorem addLines_readable (lines : List String) (buffer : List Document) (tally : Tally) :
    ∃ skipped, (documentsOf schema settings.strict lines).length + skipped =
        (filledLines lines).length ∧
      addLines (Index.writer directory settings schema committed buffer) tally (lines.map .ok) =
        (Index.writer directory settings schema committed
            (buffer ++ documentsOf schema settings.strict lines),
          .ok ⟨tally.added + (documentsOf schema settings.strict lines).length,
            tally.skipped + skipped⟩) := by
  induction lines generalizing buffer tally with
  | nil => exact ⟨0, rfl, by simp [addLines, documentsOf, filledLines]⟩
  | cons line rest ih =>
      rw [List.map_cons, addLines]
      by_cases hblank : Text.isBlank line = true
      · rw [if_pos hblank, documentsOf, filledLines_blank hblank]
        exact ih buffer tally
      · rw [if_neg hblank, add_writer, filledLines_filled hblank, documentsOf_filled hblank]
        cases Document.ofText schema line settings.strict with
        | error fault =>
            obtain ⟨skipped, hcount, hadd⟩ := ih buffer { tally with skipped := tally.skipped + 1 }
            refine ⟨skipped + 1, congrArg (· + 1) hcount, ?_⟩
            dsimp only
            rw [hadd, Nat.add_assoc, Nat.add_comm 1]
            rfl
        | ok document =>
            obtain ⟨skipped, hcount, hadd⟩ :=
              ih (buffer ++ [document]) { tally with added := tally.added + 1 }
            refine ⟨skipped, ?_, ?_⟩
            · simp only [Except.toOption, Option.toList_some, List.length_append, List.length_cons,
                List.length_nil, ← hcount]
              omega
            · dsimp only
              rw [hadd, Nat.add_assoc, List.append_assoc]
              simp only [Except.toOption, Option.toList_some, List.length_append,
                List.length_singleton]

/-- A line that cannot be read puts an end to the lines, whatever was added before it. -/
theorem addLines_unreadable {lines : List Line} {fault : IoFault} (hline : .error fault ∈ lines)
    (buffer : List Document) (tally : Tally) :
    ∃ others cause,
      addLines (Index.writer directory settings schema committed buffer) tally lines =
        (Index.writer directory settings schema committed others, .error cause) := by
  induction lines generalizing buffer tally with
  | nil => exact absurd hline List.not_mem_nil
  | cons line rest ih =>
      cases line with
      | error cause => exact ⟨buffer, cause, rfl⟩
      | ok text =>
          have hrest : .error fault ∈ rest := by simpa using hline
          rw [addLines, add_writer]
          split
          · exact ih hrest buffer tally
          · cases Document.ofText schema text settings.strict with
            | error cause => exact ih hrest buffer _
            | ok document => exact ih hrest (buffer ++ [document]) _

theorem readable_or_unreadable (lines : List Line) :
    (∃ texts : List String, lines = texts.map .ok) ∨ ∃ fault, .error fault ∈ lines := by
  induction lines with
  | nil => exact .inl ⟨[], rfl⟩
  | cons line rest ih =>
      cases line with
      | error fault => exact .inr ⟨fault, List.mem_cons_self⟩
      | ok text =>
          rcases ih with ⟨texts, rfl⟩ | ⟨fault, hfault⟩
          · exact .inl ⟨text :: texts, rfl⟩
          · exact .inr ⟨fault, List.mem_cons_of_mem _ hfault⟩

/-! Commands on a directory -/

theorem drop_writer (disk : Disk) (buffer : List Document) :
    (Index.writer directory settings schema committed buffer).drop disk =
      { disk with locked := disk.locked.erase (pathOf directory) } := by
  rfl

theorem commit_writer (disk : Disk) (buffer : List Document) :
    (Index.writer directory settings schema committed buffer).commit disk =
      match disk.files.write (storePath directory)
        (.index ⟨schema.storage, committed ++ buffer⟩) with
      | .error _ => .error (.engine .unwritable)
      | .ok files => .ok ({ disk with files := files },
          Index.writer directory settings schema (committed ++ buffer) []) := by
  rfl

theorem commitLines_writer (disk : Disk) (buffer : List Document) (tally : Tally) :
    commitLines disk (Index.writer directory settings schema committed buffer) (.ok tally) =
      match disk.files.write (storePath directory)
        (.index ⟨schema.storage, committed ++ buffer⟩) with
      | .error _ => .error (.index (.engine .unwritable))
      | .ok files => .ok ({ disk with files := files },
          Index.writer directory settings schema (committed ++ buffer) [],
          ⟨tally, (committed ++ buffer).length⟩) := by
  unfold commitLines
  rw [commit_writer]
  cases disk.files.write (storePath directory)
    (.index ⟨schema.storage, committed ++ buffer⟩) <;> rfl

/-- The disk on which a writer works on a directory. -/
def taken (disk : Disk) (directory : String) : Disk :=
  { disk with locked := pathOf directory :: disk.locked }

theorem drop_taken (disk : Disk) (buffer : List Document) :
    (Index.writer directory settings schema committed buffer).drop (taken disk directory) =
      disk := by
  rw [drop_writer, taken, List.erase_cons_head]

/-- What it takes to open a directory for an addition. -/
theorem opened_for_add {disk opened : Disk} {index : Index}
    (hopen : Index.openExisting disk (optionsOf settings directory false) = .ok (opened, index)) :
    ∃ schema documents,
      Present disk.files (optionsOf settings directory false) directory schema documents ∧
      opened = taken disk directory ∧
      index = Index.writer directory settings schema documents [] := by
  obtain ⟨schema, documents, hread, hopens, hlisted, hkept, hlock, rfl⟩ :=
    (Index.openExisting_eq_ok_iff rfl rfl).mp hopen
  obtain ⟨-, -, -, rfl⟩ := Index.lock_eq_ok_iff.mp hlock
  exact ⟨schema, documents, ⟨rfl, hread, hopens, hlisted, hkept⟩, rfl, rfl⟩

end

/--
An addition of a file in which all lines can be read. The documents of its lines are committed once
and together, after the old ones and in the order of the lines.
-/
structure Adds (settings : Settings) (directory documentFile : String) (disk next : Disk)
    (report : Report) (schema : Schema) (old : List Document) (lines : List String) : Prop where
  present : Present disk.files (optionsOf settings directory false) directory schema old
  readable : openLines disk.files documentFile = .ok (lines.map .ok)
  once : ∃ opened written index,
    Index.openExisting disk (optionsOf settings directory false) =
      .ok (opened, .writer directory settings schema old []) ∧
    (Index.writer directory settings schema old
      (documentsOf schema settings.strict lines)).commit opened = .ok (written, index) ∧
    next = index.drop written
  nodes : ∀ path, next.files.node? path =
    if path = storePath directory then
      some (.file (.index ⟨schema.storage, old ++ documentsOf schema settings.strict lines⟩))
    else disk.files.node? path
  locked : next.locked = disk.locked
  added : report.tally.added = (documentsOf schema settings.strict lines).length
  counted : report.tally.added + report.tally.skipped = (filledLines lines).length
  total : report.total = old.length + report.tally.added

section

variable {settings : Settings} {directory documentFile : String} {schema : Schema}
  {old : List Document} {lines : List String} {disk : Disk}

/-- An addition of lines that can be read writes the documents, or fails because it cannot. -/
theorem add_readable
    (hopen : Index.openExisting disk (optionsOf settings directory false) =
      .ok (taken disk directory, .writer directory settings schema old []))
    (hlines : openLines disk.files documentFile = .ok (lines.map .ok)) :
    ∃ skipped, (documentsOf schema settings.strict lines).length + skipped =
        (filledLines lines).length ∧
      add settings disk directory documentFile =
        match disk.files.write (storePath directory)
          (.index ⟨schema.storage, old ++ documentsOf schema settings.strict lines⟩) with
        | .error _ => (disk, .error (.index (.engine .unwritable)))
        | .ok files => ({ disk with files := files },
            .ok ⟨⟨(documentsOf schema settings.strict lines).length, skipped⟩,
              (old ++ documentsOf schema settings.strict lines).length⟩) := by
  have hadds := @addLines_readable settings directory schema old lines [] ⟨0, 0⟩
  obtain ⟨skipped, hcount, hadd⟩ := hadds
  refine ⟨skipped, hcount, ?_⟩
  have hfiles : (taken disk directory).files = disk.files := rfl
  unfold add
  rw [hopen]
  simp only [hfiles, hlines, hadd, List.nil_append, Nat.zero_add, commitLines_writer]
  cases disk.files.write (storePath directory)
    (.index ⟨schema.storage, old ++ documentsOf schema settings.strict lines⟩) with
  | error fault => simp only [drop_taken]
  | ok files => simp only [drop_writer, taken, List.erase_cons_head]

/-- An addition with a line that cannot be read comes to nothing. -/
theorem add_unreadable {lines : List Line} {fault : IoFault}
    (hopen : Index.openExisting disk (optionsOf settings directory false) =
      .ok (taken disk directory, .writer directory settings schema old []))
    (hlines : openLines disk.files documentFile = .ok lines) (hline : .error fault ∈ lines) :
    ∃ cause, add settings disk directory documentFile = (disk, .error (.reading cause)) := by
  have hadds := @addLines_unreadable settings directory schema old lines fault hline [] ⟨0, 0⟩
  obtain ⟨others, cause, hadd⟩ := hadds
  refine ⟨cause, ?_⟩
  have hfiles : (taken disk directory).files = disk.files := rfl
  unfold add
  rw [hopen]
  simp only [hfiles, hlines, hadd, commitLines, drop_taken]

/-- What an addition does: nothing at all, or what its report tells. -/
theorem add_cases (settings : Settings) (disk : Disk) (directory documentFile : String) :
    (∃ fault, add settings disk directory documentFile = (disk, .error fault)) ∨
      ∃ next report schema old lines,
        add settings disk directory documentFile = (next, .ok report) ∧
        Adds settings directory documentFile disk next report schema old lines := by
  cases hopen : Index.openExisting disk (optionsOf settings directory false) with
  | error fault =>
      left
      unfold add
      rw [hopen]
      exact ⟨_, rfl⟩
  | ok result =>
      obtain ⟨opened, index⟩ := result
      obtain ⟨schema, old, hpresent, rfl, rfl⟩ := opened_for_add hopen
      cases hlines : openLines disk.files documentFile with
      | error fault =>
          left
          have hfiles : (taken disk directory).files = disk.files := rfl
          unfold add
          rw [hopen]
          simp only [hfiles, hlines, drop_taken]
          exact ⟨_, rfl⟩
      | ok lines =>
          rcases readable_or_unreadable lines with ⟨texts, rfl⟩ | ⟨fault, hfault⟩
          · obtain ⟨skipped, hcount, hadd⟩ := add_readable hopen hlines
            rw [hadd]
            cases hwrite : disk.files.write (storePath directory)
              (.index ⟨schema.storage, old ++ documentsOf schema settings.strict texts⟩) with
            | error fault => exact .inl ⟨_, rfl⟩
            | ok files =>
                have hcommit := @commit_writer settings directory schema old
                  (taken disk directory) (documentsOf schema settings.strict texts)
                rw [show (taken disk directory).files = disk.files from rfl, hwrite] at hcommit
                refine .inr ⟨_, _, schema, old, texts, rfl, hpresent, hlines,
                  ⟨_, _, _, hopen, hcommit, ?_⟩, Files.node?_of_write hwrite, rfl, rfl, hcount,
                  List.length_append⟩
                simp only [drop_writer, taken, List.erase_cons_head]
          · left
            obtain ⟨cause, hadd⟩ := add_unreadable hopen hlines hfault
            exact ⟨_, hadd⟩

/-- Asking leaves everything as it is. -/
theorem ask_fst (settings : Settings) (disk : Disk) (directory : String)
    (question : Index → Except IndexError String) :
    (ask settings disk directory question).1 = disk := by
  unfold ask
  split
  · rfl
  · rename_i opened index hopen
    obtain ⟨-, schema, documents, -, -, -, -, -, rfl, rfl⟩ := Index.openExisting_eq_ok hopen
    rfl

end

/-! Commands in a row -/

/-- The number of documents that an addition tells to have added; a failed one tells none. -/
def numberOf : Except CommandError Report → Nat
  | .ok report => report.tally.added
  | .error _ => 0

/-- A command on a directory that is known. -/
inductive Invocation where
  | create (schemaFile : String)
  | add (documentFile : String)
  | search (query : String)
  | count
deriving Repr, DecidableEq

namespace Invocation

def arguments (directory : String) : Invocation → List String
  | create schemaFile => ["create", directory, schemaFile]
  | add documentFile => ["add", directory, documentFile]
  | search query => ["search", directory, query]
  | count => ["count", directory]

def after [Segmenter] (settings : Settings) (directory : String) (disk : Disk)
    (invocation : Invocation) :
    Disk :=
  (run settings disk (invocation.arguments directory)).1

/-- The number of documents that a command tells to have added. -/
def added (settings : Settings) (directory : String) (disk : Disk) : Invocation → Nat
  | add documentFile => numberOf (Command.add settings disk directory documentFile).2
  | create _ | search _ | count => 0

end Invocation

def afterAll [Segmenter] (settings : Settings) (directory : String) (disk : Disk)
    (invocations : List Invocation) : Disk :=
  invocations.foldl (Invocation.after settings directory) disk

/-- The sum of what commands in a row tell to have added. -/
def addedByAll [Segmenter] (settings : Settings) (directory : String) : Disk → List Invocation → Nat
  | _, [] => 0
  | disk, invocation :: rest =>
      invocation.added settings directory disk +
        addedByAll settings directory (invocation.after settings directory disk) rest

section

variable (settings : Settings) (disk : Disk) (directory : String)

theorem run_create [Segmenter] (schemaFile : String) :
    run settings disk ["create", directory, schemaFile] =
      ((create settings disk directory schemaFile).1,
        .ofResult (create settings disk directory schemaFile).2) := by
  rfl

theorem run_add [Segmenter] (documentFile : String) :
    run settings disk ["add", directory, documentFile] =
      ((add settings disk directory documentFile).1,
        .ofResult ((add settings disk directory documentFile).2.map Report.message)) := by
  rfl

theorem run_search [Segmenter] (query : String) :
    run settings disk ["search", directory, query] =
      (disk, .ofResult (search settings disk directory query).2) := by
  exact Prod.ext (ask_fst settings disk directory _) rfl

theorem run_count [Segmenter] :
    run settings disk ["count", directory] =
      (disk, .ofResult (count settings disk directory).2) := by
  exact Prod.ext (ask_fst settings disk directory _) rfl

end

/-- An index in a directory on which every command can work. -/
structure Ready (settings : Settings) (directory : String) (disk : Disk) (schema : Schema)
    (documents : List Document) : Prop where
  present : Present disk.files (optionsOf settings directory false) directory schema documents
  apart : pathOf (joinText directory settings.schemaFile) ≠ storePath directory
  free : pathOf directory ∉ disk.locked
  least : leastBudget ≤ settings.writerMemory.toNat
  bound : settings.writerMemory.toNat < budgetBound

section

variable {settings : Settings} {directory : String} {schema : Schema} {documents : List Document}
  {disk : Disk}

/-- What it takes for a directory to get an index. -/
theorem create_eq_ok {created : Disk} {schemaFile message : String}
    (hcreate : create settings disk directory schemaFile = (created, .ok message)) :
    ∃ schema founded index,
      Index.create disk (optionsOf settings directory false) schema = (founded, .ok index) ∧
      created = index.drop founded := by
  unfold create at hcreate
  split at hcreate
  · simp at hcreate
  · split at hcreate
    · simp at hcreate
    · rename_i founded index hfounded
      obtain ⟨schema, -, hindex⟩ := Index.createFromText_eq_ok hfounded
      exact ⟨schema, founded, index, hindex, (Prod.mk.inj hcreate).1.symm⟩

/-- A creation that succeeds leaves an index without documents. -/
theorem ready_of_create {created : Disk} {schemaFile message : String}
    (hlist : pathOf (joinText directory settings.schemaFile) ≠ listPath directory)
    (hcreate : create settings disk directory schemaFile = (created, .ok message)) :
    ∃ schema, Ready settings directory created schema [] := by
  obtain ⟨schema, founded, index, hfounded, rfl⟩ := create_eq_ok hcreate
  obtain ⟨hfound, -, hstate⟩ := Index.founded_of_create hfounded
  obtain ⟨named, files, hpath, hwrite, hlock, -, rfl⟩ := Index.create_eq_ok hfounded
  obtain rfl : directory = named := Option.some.inj hpath
  have hpresent := Index.present_of_create hfounded hlist
  obtain ⟨hfree, hleast, hbound, rfl⟩ := Index.lock_eq_ok_iff.mp hlock
  refine ⟨schema, ⟨?_, ?_, ?_, hleast, hbound⟩⟩
  · rw [Index.files_drop]
    exact hpresent
  · intro hsame
    have hnode := Index.schemaNode_of_writeAll hwrite
    have hstore := hfound.store
    rw [← hsame] at hstore
    have hboth := hstore.symm.trans hnode
    simp at hboth
  · change pathOf directory ∉ (pathOf directory :: disk.locked).erase (pathOf directory)
    rw [List.erase_cons_head]
    exact hfree

theorem Ready.openExisting (hready : Ready settings directory disk schema documents) :
    Index.openExisting disk (optionsOf settings directory false) =
      .ok (taken disk directory, .writer directory settings schema documents []) :=
  hready.present.openExisting_free rfl hready.least hready.bound hready.free

/-- The old documents and the new ones are there after an addition. -/
theorem Ready.of_adds {documentFile : String} {next : Disk} {report : Report} {found : Schema}
    {old : List Document} {lines : List String}
    (hready : Ready settings directory disk schema documents)
    (hadds : Adds settings directory documentFile disk next report found old lines) :
    (found = schema ∧ old = documents) ∧
      Ready settings directory next schema
        (documents ++ documentsOf schema settings.strict lines) := by
  have hread := hadds.present.read
  rw [hready.present.read] at hread
  obtain rfl := Except.ok.inj hread
  have hkept := hadds.present.kept
  rw [hready.present.kept] at hkept
  obtain rfl : old = documents := by simpa using hkept.symm
  have hother (path : Path) (hpath : path ≠ storePath directory) :
      next.files.node? path = disk.files.node? path := by
    rw [hadds.nodes, if_neg hpath]
  have hfolders : next.files.SameFolders disk.files := by
    intro path
    by_cases hpath : path = storePath directory
    · simp [hpath, hadds.nodes, Index.stored_eq_ok_iff.mp hready.present.kept]
    · rw [hother path hpath]
  refine ⟨⟨rfl, rfl⟩, ⟨rfl, ?_, hfolders.opens_iff.mpr hready.present.opens, ?_, ?_⟩,
    hready.apart, ?_, hready.least, hready.bound⟩
  · have hschema := @Index.readSchema_congr next.files disk.files
      (optionsOf settings directory false) directory hfolders.leads_iff (hother _ hready.apart)
    rw [hschema]
    exact hready.present.read
  · exact (Index.hasReadableList_congr (hother _ (Index.listPath_ne_storePath directory))).trans
      hready.present.listed
  · rw [Index.stored_eq_ok_iff, hadds.nodes, if_pos rfl]
  · rw [hadds.locked]
    exact hready.free

/-- Where there is an index no other one is created. -/
theorem Ready.create_fails (hready : Ready settings directory disk schema documents)
    (schemaFile : String) :
    ∃ fault, create settings disk directory schemaFile = (disk, .error fault) := by
  have hexists : disk.files.existsAt (joinText directory storeFile) = true := by
    refine Files.existsAt_of_leads (hready.present.opens.leads_joinText isPlain_storeFile) ?_
    rw [← storePath_eq, Files.hasNode, Index.stored_eq_ok_iff.mp hready.present.kept]
    rfl
  unfold create
  cases disk.files.readTextAt schemaFile with
  | error fault => exact ⟨_, rfl⟩
  | ok text =>
      dsimp only
      unfold Index.createFromText
      cases Schema.ofText text with
      | error fault => exact ⟨_, rfl⟩
      | ok other =>
          have hrefused : Index.create disk (optionsOf settings directory false) other = _ :=
            Index.create_of_existsAt rfl other (.inr hexists)
          simp only [hrefused]
          exact ⟨_, rfl⟩

/-- A command keeps the index, with as many documents more as it tells to have added. -/
theorem Ready.after [Segmenter] (hready : Ready settings directory disk schema documents)
    (invocation : Invocation) :
    ∃ others, Ready settings directory (invocation.after settings directory disk) schema others ∧
      others.length = documents.length + invocation.added settings directory disk := by
  cases invocation with
  | create schemaFile =>
      obtain ⟨fault, hcreate⟩ := hready.create_fails schemaFile
      refine ⟨documents, ?_, rfl⟩
      rw [Invocation.after, Invocation.arguments, run_create, hcreate]
      exact hready
  | add documentFile =>
      have hadded : (Invocation.add documentFile).added settings directory disk =
          numberOf (add settings disk directory documentFile).2 := rfl
      rw [Invocation.after, Invocation.arguments, run_add, hadded]
      rcases add_cases settings disk directory documentFile with
        ⟨fault, hadd⟩ | ⟨next, report, found, old, lines, hadd, hadds⟩
      · rw [hadd]
        exact ⟨documents, hready, rfl⟩
      · obtain ⟨⟨rfl, rfl⟩, hnext⟩ := hready.of_adds hadds
        rw [hadd]
        refine ⟨_, hnext, ?_⟩
        rw [List.length_append, ← hadds.added]
        rfl
  | search query =>
      refine ⟨documents, ?_, rfl⟩
      rw [Invocation.after, Invocation.arguments, run_search]
      exact hready
  | count =>
      refine ⟨documents, ?_, rfl⟩
      rw [Invocation.after, Invocation.arguments, run_count]
      exact hready

/-- Over commands in a row the documents grow by what the commands tell to have added. -/
theorem Ready.afterAll [Segmenter] (hready : Ready settings directory disk schema documents)
    (invocations : List Invocation) :
    ∃ others,
      Ready settings directory (afterAll settings directory disk invocations) schema others ∧
      others.length = documents.length + addedByAll settings directory disk invocations := by
  induction invocations generalizing disk documents with
  | nil => exact ⟨documents, hready, rfl⟩
  | cons invocation rest ih =>
      obtain ⟨next, hnext, hlength⟩ := hready.after invocation
      obtain ⟨others, hothers, hlengths⟩ := ih hnext
      refine ⟨others, hothers, ?_⟩
      rw [hlengths, hlength, addedByAll, Nat.add_assoc]

/-- The documents are counted without a change to anything. -/
theorem Ready.count_eq [Segmenter] (hready : Ready settings directory disk schema documents) :
    run settings disk ["count", directory] = (disk, { stdout := s!"{documents.length}\n" }) := by
  have hpresent : Present disk.files (optionsOf settings directory true) directory schema
      documents :=
    ⟨rfl, hready.present.read, hready.present.opens, hready.present.listed, hready.present.kept⟩
  have hopen := hpresent.openExisting_readOnly rfl
  rw [run_count]
  unfold count ask
  rw [hopen]
  rfl

/-- Where all lines can be read, their documents are committed. -/
theorem Ready.exists_adds {documentFile : String} {lines : List String}
    (hready : Ready settings directory disk schema documents)
    (hlines : openLines disk.files documentFile = .ok (lines.map .ok)) :
    ∃ next report, add settings disk directory documentFile = (next, .ok report) ∧
      Adds settings directory documentFile disk next report schema documents lines := by
  obtain ⟨skipped, hcount, hadd⟩ := add_readable hready.openExisting hlines
  have hnode : disk.files.node? (storePath directory) ≠ some .directory := by
    simp [Index.stored_eq_ok_iff.mp hready.present.kept]
  have hparent := hready.present.opens.hasDirectory
  rw [← dropLast_storePath] at hparent
  rw [Files.write_eq_ok hnode hparent] at hadd
  rcases add_cases settings disk directory documentFile with
    ⟨fault, hfails⟩ | ⟨next, report, found, old, texts, hadds, heffect⟩
  · rw [hadd] at hfails
    simp at hfails
  · obtain ⟨⟨rfl, rfl⟩, -⟩ := hready.of_adds heffect
    obtain rfl : texts = lines := by
      have hsame := heffect.readable
      rw [hlines, Except.ok.injEq] at hsame
      exact ((List.map_injective_iff.mpr fun _ _ => Except.ok.inj) hsame).symm
    exact ⟨next, report, hadds, heffect⟩

theorem ofResult_error (fault : CommandError) :
    ∃ stderr, Outcome.ofResult (.error fault) = { stderr := stderr, status := 1 } := by
  cases fault <;> exact ⟨_, rfl⟩

theorem exists_text_of_status {result : Except CommandError String}
    (hstatus : (Outcome.ofResult result).status = 0) : ∃ text, result = .ok text := by
  cases result with
  | error fault =>
      obtain ⟨stderr, houtcome⟩ := ofResult_error fault
      simp [houtcome] at hstatus
  | ok text => exact ⟨text, rfl⟩

/-! The wording of a report -/

/-- A report tells three numbers in decimal. -/
theorem toList_message (report : Report) : report.message.toList =
    " [索引] 新增 ".toList ++ (Nat.toDigits 10 report.tally.added ++ (" 篇，跳过 ".toList ++
      (Nat.toDigits 10 report.tally.skipped ++ (" 篇，共 ".toList ++
        (Nat.toDigits 10 report.total ++ " 篇\n".toList))))) := by
  have hmessage : report.message = " [索引] 新增 " ++ toString report.tally.added ++ " 篇，跳过 " ++
      toString report.tally.skipped ++ " 篇，共 " ++ toString report.total ++ " 篇\n" := rfl
  rw [hmessage]
  simp only [String.toList_append, Nat.toString_eq_ofList_toDigits, String.toList_ofList,
    List.append_assoc]

theorem takeWhile_digits (n : Nat) {rest : List Char} (hrest : rest.takeWhile Char.isDigit = []) :
    (Nat.toDigits 10 n ++ rest).takeWhile Char.isDigit = Nat.toDigits 10 n := by
  have hdigits : ∀ ch ∈ Nat.toDigits 10 n, ch.isDigit = true := fun _ hch =>
    Nat.isDigit_of_mem_toDigits (by decide) (by decide) hch
  rw [List.takeWhile_append_of_pos hdigits, hrest, List.append_nil]

/-- The number that a text begins with, and what follows it, are told by the text. -/
theorem eq_of_digits_append {n m : Nat} {rest other : List Char}
    (hrest : rest.takeWhile Char.isDigit = []) (hother : other.takeWhile Char.isDigit = [])
    (hchars : Nat.toDigits 10 n ++ rest = Nat.toDigits 10 m ++ other) : n = m ∧ rest = other := by
  have hdigits := congrArg (List.takeWhile Char.isDigit) hchars
  rw [takeWhile_digits n hrest, takeWhile_digits m hother] at hdigits
  have hnumber := congrArg (Nat.ofDigitChars 10 · 0) hdigits
  simp only [Nat.ofDigitChars_ten_toDigits] at hnumber
  subst hnumber
  exact ⟨rfl, List.append_cancel_left hchars⟩

/-- The wording of a report tells its numbers. -/
theorem message_injective : Function.Injective Report.message := by
  rintro ⟨⟨added, skipped⟩, total⟩ ⟨⟨added', skipped'⟩, total'⟩ hmessage
  have hchars := congrArg String.toList hmessage
  rw [toList_message, toList_message, List.append_cancel_left_eq] at hchars
  obtain ⟨rfl, hafter⟩ := eq_of_digits_append rfl rfl hchars
  rw [List.append_cancel_left_eq] at hafter
  obtain ⟨rfl, hlast⟩ := eq_of_digits_append rfl rfl hafter
  rw [List.append_cancel_left_eq] at hlast
  obtain ⟨rfl, -⟩ := eq_of_digits_append rfl rfl hlast
  rfl

/-- What is told of an addition, which changes nothing if it fails. -/
theorem run_add_cases [Segmenter] (settings : Settings) (disk : Disk)
    (directory documentFile : String) :
    (∃ stderr, run settings disk ["add", directory, documentFile] =
      (disk, { stderr := stderr, status := 1 })) ∨
      ∃ next report schema old lines, run settings disk ["add", directory, documentFile] =
          (next, { stdout := report.message }) ∧
        Adds settings directory documentFile disk next report schema old lines := by
  rw [run_add]
  rcases add_cases settings disk directory documentFile with
    ⟨fault, hadd⟩ | ⟨next, report, schema, old, lines, hadd, hadds⟩
  · obtain ⟨stderr, houtcome⟩ := ofResult_error fault
    left
    exact ⟨stderr, by rw [hadd]; exact Prod.ext rfl houtcome⟩
  · rw [hadd]
    exact .inr ⟨next, report, schema, old, lines, rfl, hadds⟩

/--
Commands on one directory, under the same settings. An addition commits the documents of its lines
once and together, or it changes nothing; it changes nothing where the file is missing or a line of
it cannot be read. Asking changes nothing. Once a creation has succeeded, whatever commands come
after it, the count is the sum of what the additions among them have told, and an addition of lines
that can be read succeeds; only the settings must not put the schema in place of the list of files.
What an addition tells is worded as no other numbers are.
-/
theorem count_is_sum_of_additions [Segmenter] (settings : Settings) (directory : String) :
    Function.Injective Report.message ∧
    (∀ disk documentFile,
      (∃ stderr, run settings disk ["add", directory, documentFile] =
        (disk, { stderr := stderr, status := 1 })) ∨
      ∃ next report schema old lines, run settings disk ["add", directory, documentFile] =
          (next, { stdout := report.message }) ∧
        Adds settings directory documentFile disk next report schema old lines) ∧
    (∀ disk documentFile,
      (¬∃ lines : List String, openLines disk.files documentFile = .ok (lines.map .ok)) →
        ∃ stderr, run settings disk ["add", directory, documentFile] =
          (disk, { stderr := stderr, status := 1 })) ∧
    (∀ disk query, (run settings disk ["search", directory, query]).1 = disk) ∧
    (∀ disk, (run settings disk ["count", directory]).1 = disk) ∧
    ∀ disk schemaFile created outcome,
      run settings disk ["create", directory, schemaFile] = (created, outcome) →
      outcome.status = 0 → pathOf (joinText directory settings.schemaFile) ≠ listPath directory →
      ∀ later, let now := afterAll settings directory created later
        run settings now ["count", directory] =
          (now, { stdout := s!"{addedByAll settings directory created later}\n" }) ∧
        ∀ documentFile lines, openLines now.files documentFile = .ok (lines.map .ok) →
          ∃ next report schema old, run settings now ["add", directory, documentFile] =
              (next, { stdout := report.message }) ∧
            Adds settings directory documentFile now next report schema old lines ∧
            old.length = addedByAll settings directory created later := by
  refine ⟨message_injective, fun disk => run_add_cases settings disk directory, ?_, ?_, ?_, ?_⟩
  · intro disk documentFile hlines
    rcases run_add_cases settings disk directory documentFile with
      hfails | ⟨next, report, schema, old, lines, -, hadds⟩
    · exact hfails
    · exact absurd ⟨lines, hadds.readable⟩ hlines
  · intro disk query
    rw [run_search]
  · intro disk
    rw [run_count]
  · intro disk schemaFile created outcome hrun hstatus hlist later
    rw [run_create] at hrun
    obtain ⟨hcreated, rfl⟩ := Prod.mk.inj hrun
    obtain ⟨message, hmessage⟩ := exists_text_of_status hstatus
    obtain ⟨schema, hready⟩ := ready_of_create hlist (Prod.ext hcreated hmessage)
    obtain ⟨documents, hnow, hlength⟩ := hready.afterAll later
    rw [List.length_nil, Nat.zero_add] at hlength
    refine ⟨by rw [hnow.count_eq, hlength], ?_⟩
    intro documentFile lines hlines
    obtain ⟨next, report, hadd, hadds⟩ := hnow.exists_adds hlines
    refine ⟨next, report, schema, documents, ?_, hadds, hlength⟩
    rw [run_add, hadd]
    rfl

end

/-- Files to make an index of tales of: among the documents of one a line is not UTF-8. -/
def deskDisk : Disk where
  files := ⟨[(["schema.json"], .file (.text talesText)),
    (["new.jsonl"], .file (.text "\x7b\"é\\\"\\n\":\"moby\"\x7d\r\n\n[]\n\x7b\x7d\n")),
    (["torn.jsonl"], .file (.binary [123, 125, 10, 255, 10]))]⟩

/-- Two documents are added twice, and in between there are failures. -/
def deskCommands : List Invocation :=
  [.add "new.jsonl", .add "torn.jsonl", .search "\x7b", .create "schema.json", .add "new.jsonl",
    .add "old.jsonl"]

section

attribute [local instance] Segmenter.byRuns

theorem desk_count_is_sum :
    pathOf (joinText "tales" ({} : Settings).schemaFile) ≠ listPath "tales" ∧
    ∃ created outcome, run {} deskDisk ["create", "tales", "schema.json"] = (created, outcome) ∧
      outcome.status = 0 ∧
      (run {} (afterAll {} "tales" created deskCommands) ["count", "tales"]).2.stdout = "4\n" := by
  have hlist : pathOf (joinText "tales" ({} : Settings).schemaFile) ≠ listPath "tales" := by decide
  have hstatus : (run {} deskDisk ["create", "tales", "schema.json"]).2.status = 0 := by
    decide +kernel
  have hsum : addedByAll {} "tales" (run {} deskDisk ["create", "tales", "schema.json"]).1
      deskCommands = 4 := by
    decide +kernel
  refine ⟨hlist, _, _, Prod.mk.eta.symm, hstatus, ?_⟩
  obtain ⟨-, -, -, -, -, hcounts⟩ := count_is_sum_of_additions {} "tales"
  rw [(hcounts deskDisk "schema.json" _ _ Prod.mk.eta.symm hstatus hlist deskCommands).1, hsum]
  rfl

end

end Command

end DocIndex
