import VolumeBroker.Proofs.NameOrder
import VolumeBroker.Proofs.StoreAcceptance

/-!
# The two kinds of stores

A store that keeps texts in a database answers as one that keeps the records in memory does,
whatever is saved and however often it is closed and opened again, because a record that is written
is read back.  What both give is the records that were there at first with everything put over them
that was saved, in the order of their names.

Other hands can put texts into a database that are no records.  Then nothing can be loaded from it
until records have been saved in their place, and saving goes on as before.
-/

set_option autoImplicit false

namespace VolumeBroker.Store

/-- What is done with a store. -/
inductive Access
  | save (records : Snapshot)
  | load
  /-- The store is closed and opened again, and other hands put texts into it between. -/
  | reopen (texts : Std.ExtTreeMap String String)

/-- What whoever does it is told.  A snapshot is told as the list of its records. -/
inductive Reply
  | done
  | loaded (result : Except StoreError (List (String × Allocation)))

/-- Whether no text comes into the store but as a record that is saved. -/
def Access.IsPlain : Access → Prop
  | .reopen texts => texts = ∅
  | _ => True

/-- What an access is answered. -/
def answer (s : Store) : Access → Reply
  | .load => .loaded (s.load.map (·.toList))
  | .save _ | .reopen _ => .done

/-- The store after an access. -/
def after (s : Store) : Access → Store
  | .save records => s.save records
  | .load => s
  | .reopen texts => s.reopen texts

/-- The store after a number of accesses. -/
def serve (s : Store) (accesses : List Access) : Store := accesses.foldl after s

/-- What each of the accesses was answered, in their order. -/
def replies (s : Store) : List Access → List Reply
  | [] => []
  | a :: accesses => s.answer a :: (s.after a).replies accesses

/-! ## What there should be -/

/-- What an access makes of the record of a device. -/
def Access.record? (nqn : String) (known : Option Allocation) : Access → Option Allocation
  | .save records => records[nqn]?.or known
  | .load | .reopen _ => known

/-- What an access makes of the text that a database holds for a device. -/
def Access.text? (nqn : String) (known : Option String) : Access → Option String
  | .save records => (records[nqn]?.map Allocation.encode).or known
  | .load => known
  | .reopen texts => texts[nqn]?.or known

/-- The records at first, with everything put over them that is saved. -/
def recorded? (initial : Snapshot) (accesses : List Access) (nqn : String) : Option Allocation :=
  accesses.foldl (Access.record? nqn) initial[nqn]?

/-- The texts of the records at first, with everything put over them that comes into the database.
-/
def text? (initial : Snapshot) (accesses : List Access) (nqn : String) : Option String :=
  accesses.foldl (Access.text? nqn) (initial[nqn]?.map Allocation.encode)

/-- A list gives what `view` says, in the order of the names, character by character and byte by
byte. -/
structure Lists (list : List (String × Allocation)) (view : String → Option Allocation) : Prop where
  mem_iff : ∀ (nqn : String) (a : Allocation), (nqn, a) ∈ list ↔ view nqn = some a
  ordered : list.Pairwise fun p q => codePoints p.1 < codePoints q.1
  ordered_bytes : list.Pairwise fun p q => utf8Bytes p.1 < utf8Bytes q.1

/-- The records of a snapshot are listed in the order of the names. -/
theorem lists_toList (s : Snapshot) : Lists s.toList fun nqn => s[nqn]? := by
  refine ⟨fun nqn a => Std.ExtTreeMap.mem_toList_iff_getElem?_eq_some, ?_, ?_⟩
  · exact (pairwise_toList s).imp codePoints_lt
  · exact (pairwise_toList s).imp utf8Bytes_lt

/-! ## Without other hands -/

/-- A database has the records that were written into it. -/
theorem record?_inDatabase (records : Snapshot) (nqn : String) :
    (inDatabase records).record? nqn = records[nqn]? := by
  rw [inDatabase, record?, Std.ExtTreeMap.getElem?_map]
  cases records[nqn]? with
  | none => rfl
  | some a => exact Allocation.decode?_encode a

/-- Reading a database gives the records that were written into it. -/
theorem load_inDatabase (records : Snapshot) : (inDatabase records).load = .ok records := by
  have hreadable : ∀ nqn : String, (inDatabase records).Names nqn →
      ((inDatabase records).record? nqn).isSome := by
    intro nqn hnames
    have hknown : nqn ∈ records := by simpa [inDatabase, Names] using hnames
    rw [record?_inDatabase]
    exact Std.ExtTreeMap.mem_iff_isSome_getElem?.mp hknown
  obtain ⟨snapshot, hload⟩ := exists_load_eq_ok hreadable
  have hsame : snapshot = records := by
    ext nqn a
    rw [getElem?_of_load_eq_ok hload, record?_inDatabase]
  rw [hload, hsame]

/-- What an access without foreign texts makes of the records. -/
def saved (records : Snapshot) : Access → Snapshot
  | .save new => records ∪ new
  | .load | .reopen _ => records

/-- After an access, the memory has what the access saves put over what it had. -/
theorem after_inMemory (records : Snapshot) (a : Access) :
    (inMemory records).after a = inMemory (saved records a) := by
  cases a <;> rfl

/-- After an access without foreign texts, so does the database. -/
theorem after_inDatabase (records : Snapshot) {a : Access} (h : a.IsPlain) :
    (inDatabase records).after a = inDatabase (saved records a) := by
  cases a with
  | save new =>
    have hmap : ((records ∪ new).map fun _ a => a.encode) =
        (records.map fun _ a => a.encode) ∪ new.map fun _ a => a.encode := by
      ext nqn text
      simp only [Std.ExtTreeMap.getElem?_map, Std.ExtTreeMap.getElem?_union]
      cases new[nqn]? <;> simp
    exact congrArg database hmap.symm
  | load => rfl
  | reopen texts =>
    obtain rfl : texts = ∅ := h
    have hunion : (records.map fun _ a => a.encode) ∪ (∅ : Std.ExtTreeMap String String) =
        records.map fun _ a => a.encode := by
      ext nqn text
      simp [Std.ExtTreeMap.getElem?_union]
    exact congrArg database hunion

/-- An access is answered by a database as by the memory. -/
theorem answer_inDatabase (records : Snapshot) (a : Access) :
    (inDatabase records).answer a = (inMemory records).answer a := by
  cases a with
  | load =>
    rw [answer, load_inDatabase]
    rfl
  | save _ | reopen _ => rfl

/-- Any number of accesses without foreign texts are answered alike. -/
theorem replies_inDatabase (initial : Snapshot) (accesses : List Access)
    (h : ∀ a ∈ accesses, a.IsPlain) :
    (inDatabase initial).replies accesses = (inMemory initial).replies accesses := by
  induction accesses generalizing initial with
  | nil => rfl
  | cons a accesses ih =>
    -- After every access both hold the same records, one of them as texts.
    rw [List.forall_mem_cons] at h
    rw [replies, replies, answer_inDatabase, after_inDatabase initial h.1, after_inMemory,
      ih (saved initial a) h.2]

/-- After any accesses, the memory has for each device the record that was saved last. -/
theorem serve_inMemory (initial : Snapshot) (accesses : List Access) :
    ∃ records : Snapshot, (inMemory initial).serve accesses = inMemory records ∧
      ∀ nqn : String, records[nqn]? = recorded? initial accesses nqn := by
  induction accesses generalizing initial with
  | nil => exact ⟨initial, rfl, fun _ => rfl⟩
  | cons a accesses ih =>
    obtain ⟨records, hserve, hrecords⟩ := ih (saved initial a)
    rw [← after_inMemory] at hserve
    refine ⟨records, hserve, fun nqn => ?_⟩
    have hfirst : (saved initial a)[nqn]? = a.record? nqn initial[nqn]? := by
      cases a with
      | save new => exact Std.ExtTreeMap.getElem?_union
      | load | reopen _ => rfl
    rw [hrecords, recorded?, hfirst]
    rfl

/-! ## With other hands -/

/-- After an access, the database has the text of a record that was saved, or the text that was put
in. -/
theorem after_database (texts : Std.ExtTreeMap String String) (a : Access) :
    ∃ texts' : Std.ExtTreeMap String String, (database texts).after a = database texts' ∧
      ∀ nqn : String, texts'[nqn]? = a.text? nqn texts[nqn]? := by
  cases a with
  | save records =>
    refine ⟨_, rfl, fun nqn => ?_⟩
    rw [Std.ExtTreeMap.getElem?_union, Std.ExtTreeMap.getElem?_map]
    rfl
  | load => exact ⟨texts, rfl, fun _ => rfl⟩
  | reopen new => exact ⟨_, rfl, fun _ => Std.ExtTreeMap.getElem?_union⟩

/-- After any accesses, it has for each device the text that came last. -/
theorem serve_database (texts : Std.ExtTreeMap String String) (accesses : List Access) :
    ∃ texts' : Std.ExtTreeMap String String, (database texts).serve accesses = database texts' ∧
      ∀ nqn : String, texts'[nqn]? = accesses.foldl (Access.text? nqn) texts[nqn]? := by
  induction accesses generalizing texts with
  | nil => exact ⟨texts, rfl, fun _ => rfl⟩
  | cons a accesses ih =>
    obtain ⟨first, hfirst, htext⟩ := after_database texts a
    obtain ⟨texts', hserve, htexts⟩ := ih first
    rw [← hfirst] at hserve
    refine ⟨texts', hserve, fun nqn => ?_⟩
    rw [htexts, htext]
    rfl

/-- One text that is no record keeps the whole database from being read. -/
theorem answer_load_of_undecodable {texts : Std.ExtTreeMap String String} {nqn text : String}
    (htext : texts[nqn]? = some text) (hbad : Allocation.decode? text = none) :
    (database texts).answer .load = .loaded (.error .undecodable) := by
  have hnames : (database texts).Names nqn :=
    Std.ExtTreeMap.mem_iff_isSome_getElem?.mpr (by simp [htext])
  have hload : (database texts).load = .error .undecodable :=
    load_eq_undecodable_iff.mpr ⟨nqn, hnames, by simp [record?, htext, hbad]⟩
  rw [answer, hload]
  rfl

/-- If all texts are records, they are all read. -/
theorem answer_load_of_decodable {texts : Std.ExtTreeMap String String}
    (hall : ∀ nqn text : String, texts[nqn]? = some text → Allocation.decode? text ≠ none) :
    ∃ list : List (String × Allocation), (database texts).answer .load = .loaded (.ok list) ∧
      Lists list fun nqn => texts[nqn]?.bind Allocation.decode? := by
  have hreadable : ∀ nqn : String, (database texts).Names nqn →
      ((database texts).record? nqn).isSome := by
    intro nqn hnames
    obtain ⟨text, htext⟩ :=
      Option.isSome_iff_exists.mp (Std.ExtTreeMap.mem_iff_isSome_getElem?.mp hnames)
    rw [record?, htext]
    exact Option.isSome_iff_ne_none.mpr (hall nqn text htext)
  obtain ⟨snapshot, hload⟩ := exists_load_eq_ok hreadable
  have hview : (fun nqn : String => texts[nqn]?.bind Allocation.decode?) =
      fun nqn => snapshot[nqn]? := by
    funext nqn
    exact (getElem?_of_load_eq_ok hload nqn).symm
  refine ⟨snapshot.toList, ?_, hview ▸ lists_toList snapshot⟩
  rw [answer, hload]
  rfl

/-- A database cannot be read exactly if it has a text that is no record, and otherwise all its
records are read. -/
theorem answer_load_database (texts : Std.ExtTreeMap String String) :
    ((database texts).answer .load = .loaded (.error .undecodable) ↔
      ∃ nqn text : String, texts[nqn]? = some text ∧ Allocation.decode? text = none) ∧
    ((database texts).answer .load ≠ .loaded (.error .undecodable) →
      ∃ list : List (String × Allocation), (database texts).answer .load = .loaded (.ok list) ∧
        Lists list fun nqn => texts[nqn]?.bind Allocation.decode?) := by
  by_cases hbad : ∃ nqn text : String, texts[nqn]? = some text ∧ Allocation.decode? text = none
  · obtain ⟨nqn, text, htext, hnone⟩ := id hbad
    have hfails := answer_load_of_undecodable htext hnone
    exact ⟨iff_of_true hfails hbad, fun hreads => absurd hfails hreads⟩
  · have hall : ∀ nqn text : String, texts[nqn]? = some text → Allocation.decode? text ≠ none :=
      fun nqn text htext hnone => hbad ⟨nqn, text, htext, hnone⟩
    obtain ⟨list, hlist, hlists⟩ := answer_load_of_decodable hall
    refine ⟨iff_of_false (fun hfails => ?_) hbad, fun _ => ⟨list, hlist, hlists⟩⟩
    rw [hlist] at hfails
    cases hfails

/-- A save that names every device whose text is no record makes a database readable. -/
theorem answer_load_after_save {texts : Std.ExtTreeMap String String} {records : Snapshot}
    (hnames : ∀ nqn text : String, texts[nqn]? = some text → Allocation.decode? text = none →
      nqn ∈ records) :
    ∃ list : List (String × Allocation),
      ((database texts).after (.save records)).answer .load = .loaded (.ok list) ∧
      Lists list fun nqn => records[nqn]?.or (texts[nqn]?.bind Allocation.decode?) := by
  obtain ⟨texts', hafter, htexts⟩ := after_database texts (.save records)
  have hall : ∀ nqn text : String, texts'[nqn]? = some text → Allocation.decode? text ≠ none := by
    intro nqn text htext
    rw [htexts, Access.text?] at htext
    cases hrecord : records[nqn]? with
    | some a =>
      rw [hrecord, Option.map_some, Option.some_or] at htext
      obtain rfl := Option.some.inj htext
      rw [Allocation.decode?_encode]
      exact Option.some_ne_none a
    | none =>
      rw [hrecord, Option.map_none, Option.none_or] at htext
      intro hbad
      have hnamed := Std.ExtTreeMap.mem_iff_isSome_getElem?.mp (hnames nqn text htext hbad)
      rw [hrecord] at hnamed
      cases hnamed
  obtain ⟨list, hlist, hlists⟩ := answer_load_of_decodable hall
  have hview : (fun nqn : String => texts'[nqn]?.bind Allocation.decode?) =
      fun nqn => records[nqn]?.or (texts[nqn]?.bind Allocation.decode?) := by
    funext nqn
    rw [htexts, Access.text?]
    cases records[nqn]? with
    | none => rfl
    | some a => exact Allocation.decode?_encode a
  exact ⟨list, hafter ▸ hlist, hview ▸ hlists⟩

/-- Whatever has been saved, and however often they have been closed and opened again: without other
hands, a database has answered as the memory has, and the memory gives the records that were there
at first with everything put over them that was saved, in the order of the names.  If other hands
have put texts into the database, it cannot be read exactly if a text is no record, and otherwise it
gives what the texts say.  Saving goes on, and once every name has been saved whose text is no
record, the database can be read again. -/
theorem stores_answer_alike (initial : Snapshot) (accesses : List Access) :
    ((∀ a ∈ accesses, a.IsPlain) →
      (inDatabase initial).replies accesses = (inMemory initial).replies accesses) ∧
    (∃ list : List (String × Allocation),
      ((inMemory initial).serve accesses).answer .load = .loaded (.ok list) ∧
      Lists list (recorded? initial accesses)) ∧
    let database := (inDatabase initial).serve accesses
    (database.answer .load = .loaded (.error .undecodable) ↔
      ∃ nqn text : String, text? initial accesses nqn = some text ∧
        Allocation.decode? text = none) ∧
    (database.answer .load ≠ .loaded (.error .undecodable) →
      ∃ list : List (String × Allocation), database.answer .load = .loaded (.ok list) ∧
        Lists list fun nqn => (text? initial accesses nqn).bind Allocation.decode?) ∧
    ∀ records : Snapshot, database.answer (.save records) = .done ∧
      ((∀ nqn text : String, text? initial accesses nqn = some text →
          Allocation.decode? text = none → nqn ∈ records) →
        ∃ list : List (String × Allocation),
          (database.after (.save records)).answer .load = .loaded (.ok list) ∧
          Lists list fun nqn =>
            records[nqn]?.or ((text? initial accesses nqn).bind Allocation.decode?)) := by
  obtain ⟨records, hmemory, hrecords⟩ := serve_inMemory initial accesses
  obtain ⟨texts, hdatabase, htexts⟩ :=
    serve_database (initial.map fun _ a => a.encode) accesses
  have htext : ∀ nqn : String, texts[nqn]? = text? initial accesses nqn := by
    intro nqn
    rw [htexts, Std.ExtTreeMap.getElem?_map]
    rfl
  refine ⟨replies_inDatabase initial accesses, ⟨records.toList, ?_, ?_⟩, ?_⟩
  · rw [hmemory]
    rfl
  · exact funext hrecords ▸ lists_toList records
  · intro database
    have hdatabase : database = .database texts := hdatabase
    rw [hdatabase]
    simp only [← htext]
    obtain ⟨hfails, hreads⟩ := answer_load_database texts
    exact ⟨hfails, hreads, fun new => ⟨rfl, answer_load_after_save⟩⟩

/-- One device, bound to `vol1`. -/
def oneBound : Snapshot := (∅ : Snapshot).insert "nqn-a" (.owned "vol1")

/-- Other hands put a text into the database that is no record. -/
def spoiling : List Access :=
  [.reopen ((∅ : Std.ExtTreeMap String String).insert "nqn-b" "unreadable")]

/-- A text that is no record keeps the database from being read until a record is saved in its
place.  Opening the database again changes nothing. -/
theorem spoiled_database_is_mended_by_save :
    (inDatabase oneBound).replies [.save oneBound, .reopen ∅, .load] =
        (inMemory oneBound).replies [.save oneBound, .reopen ∅, .load] ∧
      ((inDatabase oneBound).serve spoiling).answer .load = .loaded (.error .undecodable) ∧
      ∃ list : List (String × Allocation),
        (((inDatabase oneBound).serve spoiling).after
          (.save ((∅ : Snapshot).insert "nqn-b" .free))).answer .load = .loaded (.ok list) ∧
        ("nqn-a", .owned "vol1") ∈ list ∧ ("nqn-b", .free) ∈ list := by
  obtain ⟨hplain, -, -⟩ := stores_answer_alike oneBound [.save oneBound, .reopen ∅, .load]
  obtain ⟨-, -, hfails, -, hsave⟩ := stores_answer_alike oneBound spoiling
  refine ⟨hplain ?_, hfails.mpr ⟨"nqn-b", "unreadable", by decide, by decide⟩, ?_⟩
  · simp [Access.IsPlain]
  · obtain ⟨-, hmended⟩ := hsave ((∅ : Snapshot).insert "nqn-b" .free)
    have hnames : ∀ nqn text : String, text? oneBound spoiling nqn = some text →
        Allocation.decode? text = none → nqn ∈ (∅ : Snapshot).insert "nqn-b" .free := by
      intro nqn text htext hbad
      by_cases hnqn : "nqn-b" = nqn
      · simp [hnqn]
      · have hrecord : (oneBound[nqn]?.map Allocation.encode) = some text := by
          simpa [text?, spoiling, Access.text?, Std.ExtTreeMap.getElem?_insert, hnqn] using htext
        obtain ⟨a, -, rfl⟩ := Option.map_eq_some_iff.mp hrecord
        rw [Allocation.decode?_encode] at hbad
        cases hbad
    obtain ⟨list, hlist, hlists⟩ := hmended hnames
    exact ⟨list, hlist, (hlists.mem_iff _ _).mpr (by decide), (hlists.mem_iff _ _).mpr (by decide)⟩

end VolumeBroker.Store
