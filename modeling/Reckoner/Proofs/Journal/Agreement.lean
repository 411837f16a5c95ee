import Mathlib
import Reckoner.Proofs.Journal.Storage

/-! Journals and their files.  Through any run of records, removals and new openings a journal has
the latest entries of its log, and its file has them too: a journal that is opened at any point is
the one at hand. -/

namespace Reckoner

open Json (Value)
open Utf8 (Bytes)

/-! ### Entries in a file -/

/-- What stands for an entry: an object with both texts.  The time is zero where it is no integer. -/
inductive Entry.StandsFor : Value → Entry → Prop
  | timed {members : List (LooseText × Value)} {expression result : LooseText} {time : ℤ}
      (hexpression : Value.member? "expr" members = some (.text expression))
      (hresult : Value.member? "result" members = some (.text result))
      (htime : Value.member? "ts" members = some (.integer time)) :
      StandsFor (.object members) ⟨expression, result, time⟩
  | untimed {members : List (LooseText × Value)} {expression result : LooseText}
      (hexpression : Value.member? "expr" members = some (.text expression))
      (hresult : Value.member? "result" members = some (.text result))
      (htime : ∀ time, Value.member? "ts" members ≠ some (.integer time)) :
      StandsFor (.object members) ⟨expression, result, 0⟩

/-- The entries among the items of an array, in their order. -/
inductive Entry.Among : List Value → List Entry → Prop
  | nil : Among [] []
  | entry {item : Value} {items : List Value} {entry : Entry} {entries : List Entry}
      (h : StandsFor item entry) (hmore : Among items entries) : Among (item :: items) (entry :: entries)
  | other {item : Value} {items : List Value} {entries : List Entry}
      (h : ∀ entry, ¬StandsFor item entry) (hmore : Among items entries) : Among (item :: items) entries

/-- The entries that a file holds in UTF-8: none if it is missing or its text is no array, else those
among the items. -/
inductive Journal.Holds : Except DiskFault Bytes → List Entry → Prop
  | missing : Holds (.error .missing) []
  | array {text : Text} {items : List Value} {entries : List Entry}
      (hread : Value.read text.unifyLineFeeds = .ok (.array items))
      (hitems : Entry.Among items entries) : Holds (.ok (Utf8.encode text)) entries
  | other {text : Text} (h : ∀ items, Value.read text.unifyLineFeeds ≠ .ok (.array items)) :
      Holds (.ok (Utf8.encode text)) []

namespace Entry

variable {item : Value} {entry : Entry} {items : List Value} {entries : List Entry}

theorem ofJson?_eq_some : ofJson? item = some entry ↔ StandsFor item entry := by
  constructor
  · intro h
    rw [ofJson?.eq_def] at h
    split at h
    case h_2 => cases h
    case h_1 members =>
      split at h
      case h_2 => cases h
      case h_1 expression result hexpression hresult =>
        split at h
        case h_1 time htime =>
          obtain rfl := Option.some.inj h
          exact .timed hexpression hresult htime
        case h_2 htime =>
          obtain rfl := Option.some.inj h
          exact .untimed hexpression hresult htime
  · intro h
    cases h with
    | timed hexpression hresult htime => rw [ofJson?, hexpression, hresult, htime]
    | untimed hexpression hresult htime =>
      rw [ofJson?, hexpression, hresult]
      dsimp only
      split
      case h_1 time heq => exact absurd heq (htime time)
      case h_2 => rfl

theorem filterMap_of_among (h : Among items entries) : items.filterMap ofJson? = entries := by
  induction h with
  | nil => rfl
  | entry h _ ih => rw [List.filterMap_cons_some (ofJson?_eq_some.mpr h), ih]
  | other h _ ih =>
    rw [List.filterMap_cons_none, ih]
    exact Option.eq_none_iff_forall_ne_some.mpr fun entry hentry =>
      h entry (ofJson?_eq_some.mp hentry)

end Entry

namespace Journal

variable {path : Path} {m : ℕ} {start world : World} {initial log entries : List Entry}
  {journal : Journal} {reply : Except DiskFault Bytes}

/-- A file that can be opened: none of its integers has too many digits, and its values are not
nested too deep, as far as the text is read. -/
def CanBeOpened (reply : Except DiskFault Bytes) : Prop :=
  ∀ text, reply = .ok (Utf8.encode text) → Value.read text.unifyLineFeeds ≠ .error .numeralTooLong ∧
    Value.read text.unifyLineFeeds ≠ .error .tooDeep

theorem encode_injective {s t : Text} (h : Utf8.encode s = Utf8.encode t) : s = t := by
  have hdecode := Utf8.decode_encode s
  rw [h, Utf8.decode_encode] at hdecode
  exact (Except.ok.inj hdecode).symm

theorem found_of_encode (text : Text) :
    found (.ok (Utf8.encode text)) = entriesIn text.unifyLineFeeds := by
  rw [found, textIn, Utf8.decode_encode]
  rfl

theorem entriesIn_eq (s : Text) : entriesIn s = match Value.read s with
    | .ok (.array items) => .ok (items.filterMap Entry.ofJson?)
    | .ok _ | .error .malformed => .ok []
    | .error .numeralTooLong => .error .numeralTooLong
    | .error .tooDeep => .error .tooDeep := by
  rw [entriesIn, Entry.readAll]
  cases s with
  | nil => rfl
  | cons c s =>
    dsimp only [List.isEmpty_cons, Bool.false_eq_true, if_false]
    rcases Value.read (c :: s) with fault | value
    · cases fault <;> rfl
    · cases value <;> rfl

theorem found_of_holds (h : Holds reply initial) (hfound : found reply = .ok entries) :
    entries = initial := by
  cases h with
  | missing => exact (Except.ok.inj hfound).symm
  | @array text items initial hread hitems =>
    rw [found_of_encode, entriesIn_eq, hread] at hfound
    rw [← Entry.filterMap_of_among hitems]
    exact (Except.ok.inj hfound).symm
  | @other text hother =>
    rw [found_of_encode, entriesIn_eq] at hfound
    split at hfound
    case h_1 items hread => exact absurd hread (hother items)
    case h_4 => cases hfound
    case h_5 => cases hfound
    all_goals exact (Except.ok.inj hfound).symm

theorem exists_found_encode_iff (text : Text) :
    (∃ entries, found (.ok (Utf8.encode text)) = .ok entries) ↔
      CanBeOpened (.ok (Utf8.encode text)) := by
  rw [found_of_encode, entriesIn_eq]
  constructor
  · rintro ⟨entries, hentries⟩ text' htext
    obtain rfl := encode_injective (Except.ok.inj htext)
    constructor <;>
      · intro hread
        rw [hread] at hentries
        cases hentries
  · intro hopen
    obtain ⟨hlong, hdeep⟩ := hopen text rfl
    split
    case h_4 hread => exact absurd hread hlong
    case h_5 hread => exact absurd hread hdeep
    all_goals exact ⟨_, rfl⟩

theorem exists_found_iff (h : Holds reply initial) :
    (∃ entries, found reply = .ok entries) ↔ CanBeOpened reply := by
  cases h with
  | missing => exact ⟨fun _ text htext => (nomatch htext), fun _ => ⟨[], rfl⟩⟩
  | array => exact exists_found_encode_iff _
  | other => exact exists_found_encode_iff _

/-- A file whose bytes are a text in UTF-8, or none that can be read. -/
inductive TextOrNone : Except DiskFault Bytes → Prop
  | text (text : Text) : TextOrNone (.ok (Utf8.encode text))
  | none {fault : DiskFault} (h : fault ≠ .zeroInName) : TextOrNone (.error fault)

theorem exists_found_of_canBeOpened {reply : Except DiskFault Bytes} (h : TextOrNone reply)
    (hopens : CanBeOpened reply) : ∃ entries, found reply = .ok entries := by
  cases h with
  | text text => exact (exists_found_encode_iff text).mpr hopens
  | @none fault hfault =>
    refine ⟨[], ?_⟩
    cases fault with
    | zeroInName => exact absurd rfl hfault
    | _ => rfl

theorem run_opened_of_found (h : found (world.disk.read world.folder path) = .ok entries) :
    ∃ events, Event.output events = [] ∧
      (opened path m).run world = (.ok ⟨path, m, entries.take m⟩, world.showsAll events) := by
  obtain ⟨events, hsilent, hrun⟩ := run_opened path m world
  rw [h] at hrun
  exact ⟨events, hsilent, hrun⟩

theorem found_of_run_opened (h : (opened path m).run start = (.ok journal, world)) :
    ∃ entries events, found (start.disk.read start.folder path) = .ok entries ∧
      journal = ⟨path, m, entries.take m⟩ ∧ world = start.showsAll events := by
  obtain ⟨events, -, hrun⟩ := run_opened path m start
  rw [h] at hrun
  obtain ⟨hjournal, rfl⟩ := Prod.mk.inj hrun
  cases hfound : found (start.disk.read start.folder path) with
  | error crash =>
    rw [hfound] at hjournal
    cases hjournal
  | ok entries =>
    rw [hfound] at hjournal
    exact ⟨entries, events, rfl, Except.ok.inj hjournal, rfl⟩

/-! ### Runs -/

/-- A journal after a run of operations that were successful, the world after it, and the log of the
run: what has been recorded since the last removal, newest first, and after that, if there was none,
the entries at the start.  Between two operations the world may change, but not the file. -/
inductive Kept (path : Path) (m : ℕ) (start : World) (initial : List Entry) :
    Journal → World → List Entry → Prop
  | opened {journal : Journal} {world : World}
      (h : (Journal.opened path m).run start = (.ok journal, world)) :
      Kept path m start initial journal world initial
  | recorded {journal journal' : Journal} {world before after : World} {log : List Entry}
      {expression result : LooseText} {time : Option ℤ} {entry : Entry}
      (hkept : Kept path m start initial journal world log)
      (hfile : before.disk.read before.folder path = world.disk.read world.folder path)
      (hexpression : expression.IsJoined) (hresult : result.IsJoined)
      (h : (journal.record expression result time).run before = (.ok (entry, journal'), after)) :
      Kept path m start initial journal' after (⟨expression, result, time.getD before.clock⟩ :: log)
  | cleared {journal journal' : Journal} {world before after : World} {log : List Entry}
      (hkept : Kept path m start initial journal world log)
      (hfile : before.disk.read before.folder path = world.disk.read world.folder path)
      (h : journal.clear.run before = (.ok journal', after)) :
      Kept path m start initial journal' after []
  | reopened {journal journal' : Journal} {world before after : World} {log : List Entry}
      (hkept : Kept path m start initial journal world log)
      (hfile : before.disk.read before.folder path = world.disk.read world.folder path)
      (h : (Journal.opened path m).run before = (.ok journal', after)) :
      Kept path m start initial journal' after log

/-- A journal with the latest entries of a log, and the same entries in its file. -/
structure Agrees (path : Path) (m : ℕ) (journal : Journal) (world : World) (log : List Entry) :
    Prop where
  journal : journal = ⟨path, m, log.take m⟩
  file : ∃ entries, found (world.disk.read world.folder path) = .ok entries ∧
    entries.take m = log.take m

theorem Agrees.reopened {before after : World} {journal' : Journal}
    (h : Agrees path m journal world log)
    (hfile : before.disk.read before.folder path = world.disk.read world.folder path)
    (hopen : (Journal.opened path m).run before = (.ok journal', after)) :
    Agrees path m journal' after log := by
  obtain ⟨entries, hfound, htake⟩ := h.file
  obtain ⟨entries', events, hfound', rfl, rfl⟩ := found_of_run_opened hopen
  rw [hfile, hfound] at hfound'
  obtain rfl := Except.ok.inj hfound'
  exact ⟨by rw [htake], entries, by rw [← hfound, ← hfile]; rfl, htake⟩

theorem take_cons_take {α : Type} (m : ℕ) (a : α) (l : List α) :
    (a :: l.take m).take m = (a :: l).take m := by
  cases m with
  | zero => rfl
  | succ m => rw [List.take_succ_cons, List.take_succ_cons, List.take_take, Nat.min_eq_left (by omega)]

/-- A record puts its entry before the others, in the journal and in the file. -/
theorem Agrees.recorded {before after : World} {journal' : Journal} {expression result : LooseText}
    {time : Option ℤ} {entry : Entry} (h : Agrees path m journal world log)
    (hexpression : expression.IsJoined) (hresult : result.IsJoined)
    (hrecord : (journal.record expression result time).run before = (.ok (entry, journal'), after)) :
    Agrees path m journal' after (⟨expression, result, time.getD before.clock⟩ :: log) := by
  obtain ⟨rfl, rfl, text, disk, htext, hwrite, hfolder⟩ := of_run_record hrecord
  obtain ⟨entries, hfound, htake⟩ := h.file
  rw [h.journal] at htext hwrite ⊢
  have hentries : (withEntry ⟨path, m, log.take m⟩
      ⟨expression, result, time.getD before.clock⟩).entries =
      List.take m (⟨expression, result, time.getD before.clock⟩ :: log) :=
    take_cons_take m _ log
  rw [hentries] at htext
  have hkeepable : ∀ e ∈ List.take m (⟨expression, result, time.getD before.clock⟩ :: log),
      e.Keepable := by
    have htimes := ((Entry.writeAll?_eq_some .compact).mp htext).1
    rw [← take_cons_take] at htimes ⊢
    intro e he
    -- The new entry has a time that could be written, and the others have been read from the file.
    rcases List.mem_cons.mp (List.mem_of_mem_take he) with rfl | hold
    · exact (Entry.keepable_iff hexpression hresult).mpr (htimes _ he)
    · rw [← htake] at hold
      exact keepable_of_found hfound e (List.mem_of_mem_take hold)
  refine ⟨congrArg (Journal.mk path m) hentries, _, ?_, List.take_take.trans (by rw [min_self])⟩
  rw [hfolder, Disk.read_of_write hwrite, ← List.append_nil text]
  exact found_encode htext hkeepable (List.forall_mem_nil _) (List.forall_mem_nil _)

theorem Agrees.cleared {before after : World} {journal' : Journal}
    (h : Agrees path m journal world log)
    (hclear : journal.clear.run before = (.ok journal', after)) :
    Agrees path m journal' after [] := by
  obtain ⟨rfl, hremove, hafter⟩ := of_run_clear hclear
  rw [h.journal] at hremove ⊢
  refine ⟨by rw [List.take_nil], [], ?_, rfl⟩
  rw [hafter, Disk.read_of_remove hremove]
  rfl

theorem Kept.agrees (hstart : Holds (start.disk.read start.folder path) initial)
    (h : Kept path m start initial journal world log) : Agrees path m journal world log := by
  -- By induction on the run: each operation keeps the agreement of the journal with its file.
  induction h with
  | opened h =>
    obtain ⟨entries, events, hfound, rfl, rfl⟩ := found_of_run_opened h
    obtain rfl := found_of_holds hstart hfound
    exact ⟨rfl, entries, hfound, rfl⟩
  | recorded _ _ hexpression hresult h ih => exact ih.recorded hexpression hresult h
  | cleared _ _ h ih => exact ih.cleared h
  | reopened _ hfile h ih => exact ih.reopened hfile h

/-- A journal opens if its file can be opened.  After any run it has the latest entries of the log,
not more than its capacity, and when it is opened again, in any world with the same file, it is the
journal at hand. -/
theorem journal_agrees (path : Path) (m : ℕ) {start : World} {initial : List Entry}
    (hstart : Holds (start.disk.read start.folder path) initial) :
    ((∃ journal world, (opened path m).run start = (.ok journal, world)) ↔
        CanBeOpened (start.disk.read start.folder path)) ∧
      ∀ journal world log, Kept path m start initial journal world log →
        journal.entries = log.take m ∧ journal.entries.length ≤ m ∧
          ∀ later : World, later.disk.read later.folder path = world.disk.read world.folder path →
            ∃ events, (opened path m).run later = (.ok journal, later.showsAll events) := by
  refine ⟨?_, fun journal world log hkept => ?_⟩
  · rw [← exists_found_iff hstart]
    constructor
    · rintro ⟨journal, world, hrun⟩
      obtain ⟨entries, events, hfound, -⟩ := found_of_run_opened hrun
      exact ⟨entries, hfound⟩
    · rintro ⟨entries, hfound⟩
      obtain ⟨events, -, hrun⟩ := @run_opened_of_found path m start entries hfound
      exact ⟨_, _, hrun⟩
  · have hagrees := hkept.agrees hstart
    have hentries : journal.entries = log.take m := by rw [hagrees.journal]
    refine ⟨hentries, by rw [hentries]; exact List.length_take_le m log, fun later hfile => ?_⟩
    obtain ⟨entries, hfound, htake⟩ := hagrees.file
    obtain ⟨events, -, hrun⟩ := @run_opened_of_found path m later entries (by rw [hfile, hfound])
    exact ⟨events, by rw [hrun, hagrees.journal, htake]⟩

/-! A file with an entry that has no proper time and a value that is none, and a record that leaves
no place for the old entry. -/

def mixedText : Text := "[\x7b\"result\": \"2\", \"expr\": \"1+1\", \"ts\": true\x7d, 5]"

def mixedWorld : World where
  disk := ⟨[([['h']], .file (Utf8.encode mixedText))]⟩
  clock := 1000

def mixedPath : Path := ⟨0, [['h']]⟩

def oldEntry : Entry := ⟨Text.loose ['1', '+', '1'], Text.loose ['2'], 0⟩

def newEntry : Entry := ⟨Text.loose ['2', '*', '2'], Text.loose ['4'], 1000⟩

theorem read_mixed : mixedText.unifyLineFeeds = mixedText ∧
    Value.read mixedText = .ok (.array [.object
      [(Text.loose "result".toList, .text (Text.loose ['2'])),
        (Text.loose "expr".toList, .text (Text.loose ['1', '+', '1'])),
        (Text.loose "ts".toList, .boolean true)], .integer 5]) :=
  ⟨by decide, by cbv⟩

theorem fileAt_mixed :
    mixedWorld.disk.read mixedWorld.folder mixedPath = .ok (Utf8.encode mixedText) := rfl

theorem holds_mixed : Holds (mixedWorld.disk.read mixedWorld.folder mixedPath) [oldEntry] := by
  obtain ⟨hlines, hvalue⟩ := read_mixed
  rw [fileAt_mixed]
  refine .array (by rw [hlines, hvalue])
    (.entry (.untimed rfl rfl fun time h => ?_) (.other ?_ .nil))
  · cases h
  · rintro entry ⟨⟩

theorem canBeOpened_mixed :
    CanBeOpened (mixedWorld.disk.read mixedWorld.folder mixedPath) := by
  obtain ⟨hlines, hvalue⟩ := read_mixed
  intro text htext
  rw [fileAt_mixed] at htext
  obtain rfl := encode_injective (Except.ok.inj htext)
  rw [hlines, hvalue]
  exact ⟨nofun, nofun⟩

/-- The new entry takes the place of the old one. -/
theorem kept_mixed : ∃ journal world,
    Kept mixedPath 1 mixedWorld [oldEntry] journal world [newEntry, oldEntry] := by
  obtain ⟨entries, hfound⟩ := (exists_found_iff holds_mixed).mpr canBeOpened_mixed
  obtain rfl := found_of_holds holds_mixed hfound
  obtain ⟨events, -, hopen⟩ := @run_opened_of_found mixedPath 1 mixedWorld _ hfound
  have hkeepable : ∀ e ∈ [newEntry], e.Keepable :=
    List.forall_mem_singleton.mpr
      ⟨LooseText.isJoined_loose _, LooseText.isJoined_loose _, by decide⟩
  have hfolders : (mixedWorld.showsAll events).disk.makeFolders [] mixedPath.parent =
      (.ok (), mixedWorld.disk) := by
    rw [Disk.makeFolders]
    rfl
  have hrecord := @run_record ⟨mixedPath, 1, [oldEntry]⟩ (mixedWorld.showsAll events)
    newEntry.expression newEntry.result none _ _ _
    (Entry.writeAll?_of_keepable hkeepable .compact) hfolders rfl
  exact ⟨_, _, .recorded (.opened hopen) rfl (LooseText.isJoined_loose _)
    (LooseText.isJoined_loose _) hrecord⟩

theorem journal_agrees_mixed :
    Holds (mixedWorld.disk.read mixedWorld.folder mixedPath) [oldEntry] ∧
      (∃ journal world, (opened mixedPath 1).run mixedWorld = (.ok journal, world)) ∧
      ∃ journal world, Kept mixedPath 1 mixedWorld [oldEntry] journal world [newEntry, oldEntry] ∧
        journal.entries = [newEntry] ∧
        ∃ events, (opened mixedPath 1).run world = (.ok journal, world.showsAll events) := by
  obtain ⟨hopen, hruns⟩ := journal_agrees mixedPath 1 holds_mixed
  obtain ⟨journal, world, hkept⟩ := kept_mixed
  obtain ⟨hentries, -, hagain⟩ := hruns journal world _ hkept
  exact ⟨holds_mixed, hopen.mpr canBeOpened_mixed, journal, world, hkept, hentries,
    hagain world rfl⟩

/-! A file whose array has nothing but an integer with one digit too many. -/

def longText : Text := '[' :: (Text.ofInt (10 ^ maxIntegerDigits) ++ [']'])

def longWorld : World where
  disk := ⟨[([['h']], .file (Utf8.encode longText))]⟩

theorem read_longText : Value.read longText.unifyLineFeeds = .error .numeralTooLong := by
  have hlines : longText.unifyLineFeeds = longText := by
    refine unifyLineFeeds_eq_self fun c hc => ?_
    rw [longText, List.mem_cons, List.mem_append, List.mem_singleton] at hc
    rcases hc with rfl | hc | rfl
    · decide
    · exact (Json.visible_ofInt _).ne_return c hc
    · decide
  rw [hlines]
  refine Json.read_of_long (Nat.lt_of_not_le ?_)
  rw [Entry.length_ofNat_le_iff (by decide), Int.natAbs_pow, show Int.natAbs 10 = 10 from rfl]
  exact lt_irrefl _

/-- The journal of that file is not opened, although the file holds no entries. -/
theorem not_journal_agrees : Holds (longWorld.disk.read longWorld.folder mixedPath) [] ∧
    ((opened mixedPath 200).run longWorld).1 = .error (.crash .numeralTooLong) := by
  have hfile : longWorld.disk.read longWorld.folder mixedPath = .ok (Utf8.encode longText) := rfl
  refine ⟨?_, ?_⟩
  · rw [hfile]
    refine .other fun items => ?_
    rw [read_longText]
    exact nofun
  · obtain ⟨events, -, hrun⟩ := run_opened mixedPath 200 longWorld
    rw [hrun, hfile, found_of_encode, entriesIn_eq, read_longText]
    rfl

end Journal

end Reckoner
