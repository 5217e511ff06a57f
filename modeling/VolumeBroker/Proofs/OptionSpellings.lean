import Mathlib.Data.List.Induction
import VolumeBroker.CommandLine
import VolumeBroker.Proofs.LeadingRuns

/-!
# How options are spelled

An option can be written in several ways, and options can be given in any order.  `Spelled` is one
option as somebody has written it, and `parse_spelled` says that a line of them is read as the
settings they stand for, if none is given twice.  The reader is one argument behind where a value
stands on its own, so what is carried along the line is what the reader would have if the line ended
there.
-/

set_option autoImplicit false

namespace VolumeBroker

/-- The ways in which an option can be written. -/
inductive Spelling
  /-- The long name, and the value as an argument of its own. -/
  | long
  /-- The long name and the value, with an equals sign between them. -/
  | longEquals
  | short
  /-- The short name and right after it the value. -/
  | shortJoined
  | shortEquals
  deriving DecidableEq, Repr

/-- An option with its value, as it is written. -/
structure Spelled where
  setting : Setting
  value : String
  spelling : Spelling
  deriving DecidableEq, Repr

namespace Spelled

/-- The arguments that the option is written with. -/
def args (o : Spelled) : List String :=
  match o.spelling with
  | .long => ["--" ++ o.setting.name, o.value]
  | .longEquals => ["--" ++ o.setting.name ++ "=" ++ o.value]
  | .short => ["-c", o.value]
  | .shortJoined => ["-c" ++ o.value]
  | .shortEquals => ["-c=" ++ o.value]

/-- The text does not look like an option. -/
def StandsAlone (value : String) : Prop := value = "-" ∨ value.toList.head? ≠ some '-'

/-- Whether a value looks like an option can be seen from its first character. -/
instance (value : String) : Decidable (StandsAlone value) :=
  inferInstanceAs (Decidable (_ ∨ _))

/-- The value can be written in this way. -/
structure IsLegal (o : Spelled) : Prop where
  path : o.setting.isPath = true → o.value ≠ ""
  alone : o.spelling = .long ∨ o.spelling = .short → StandsAlone o.value
  short : o.spelling = .short ∨ o.spelling = .shortJoined ∨ o.spelling = .shortEquals →
    o.setting = .config
  joined : o.spelling = .shortJoined → o.value.toList.head? ≠ some '='

/-- The options give these values, each of them once. -/
structure Give (options : List Spelled) (said : Setting → Option String) : Prop where
  legal : ∀ o ∈ options, o.IsLegal
  once : (options.map (·.setting)).Nodup
  said : ∀ s v, said s = some v ↔ ∃ o ∈ options, o.setting = s ∧ o.value = v

end Spelled

namespace CommandLine

open Text

/-- If the line ended here these settings would be given. -/
def Holds (l : CommandLine) (given : List (Setting × String)) : Prop :=
  l.settle = .ok ⟨given, none, false⟩

variable {l : CommandLine} {given : List (Setting × String)}

/-- A value is accepted for a setting that has none so far, if it is not an empty path. -/
theorem accept_eq_ok {s : Setting} {value : String} (hnew : given.lookup s = none)
    (hpath : s.isPath = true → value ≠ "") :
    accept ⟨given, none, false⟩ s value = .ok ⟨(s, value) :: given, none, false⟩ := by
  have hvalue : (s.isPath && value.isEmpty) = false := by
    cases hs : s.isPath with
    | false => rfl
    | true => simp [hpath hs]
  unfold accept
  rw [hnew, hvalue]
  rfl

/-- A line that ends with its settings has not been through the two dashes that end the options. -/
theorem Holds.optionsEnded (h : l.Holds given) : l.optionsEnded = false := by
  obtain ⟨found, pending, ended⟩ := l
  unfold Holds settle at h
  rcases pending with _ | ⟨s, _ | value⟩
  · cases h
    rfl
  · cases h
  · dsimp only at h
    unfold accept at h
    split at h
    · cases h
    · split at h
      · cases h
      · cases h
        rfl

/-! ## Reading one option -/

/-- An option with its value attached is taken in at once. -/
theorem readOption_attached (h : l.Holds given) {s : Setting} {value : String}
    (hnew : given.lookup s = none) (hpath : s.isPath = true → value ≠ "") :
    l.readOption s (some value) = .ok ⟨(s, value) :: given, none, false⟩ := by
  unfold readOption
  rw [h]
  exact accept_eq_ok hnew hpath

/-- An option without a value waits for it. -/
theorem readOption_alone (h : l.Holds given) (s : Setting) :
    l.readOption s none = .ok ⟨given, some (s, none), false⟩ := by
  unfold readOption
  rw [h]
  rfl

/-- A value that does not look like an option is taken by the option that waits. -/
theorem read_value {s : Setting} {value : String} (hvalue : Spelled.StandsAlone value) :
    read ⟨given, some (s, none), false⟩ value = .ok ⟨given, some (s, some value), false⟩ := by
  have hplain : readPlain ⟨given, some (s, none), false⟩ value =
      .ok ⟨given, some (s, some value), false⟩ := rfl
  unfold read
  rw [if_neg Bool.false_ne_true]
  rcases hvalue with rfl | hhead
  · exact hplain
  · split
    · next hcs => simp [hcs] at hhead
    · next hcs => simp [hcs] at hhead
    · exact hplain
    · next hcs => simp [hcs] at hhead
    · exact hplain

/-- With its value, the option that has waited is given. -/
theorem holds_value {s : Setting} {value : String} (hnew : given.lookup s = none)
    (hpath : s.isPath = true → value ≠ "") :
    Holds ⟨given, some (s, some value), false⟩ ((s, value) :: given) :=
  accept_eq_ok hnew hpath

/-- The long name of a setting is known, is not empty and has no equals sign. -/
theorem name_spec (s : Setting) :
    Setting.ofName? s.name = some s ∧ s.name.toList ≠ [] ∧ ∀ c ∈ s.name.toList, c ≠ '=' := by
  have hchars : s.name.toList.all (· != '=') = true := by cases s <;> rfl
  refine ⟨by cases s <;> rfl, by cases s <;> simp [Setting.name], fun c hc => ?_⟩
  exact bne_iff_ne.mp (List.all_eq_true.mp hchars c hc)

/-- Two dashes with something after them make a long option. -/
theorem read_of_dashes {arg : String} {c : Char} {body : List Char} (h : l.Holds given)
    (harg : arg.toList = '-' :: '-' :: c :: body) : l.read arg = l.readLong (c :: body) := by
  unfold read
  rw [h.optionsEnded, if_neg Bool.false_ne_true, harg]
  rfl

/-- The value in what follows a long name: nothing, or an equals sign and the value. -/
def attached? : List Char → Option String
  | [] => none
  | _ :: value => some (String.ofList value)

/-- A long option is read by its name, with what follows the name. -/
theorem readLong_name (s : Setting) {rest : List Char} (hrest : Stops (· != '=') rest) :
    l.readLong (s.name.toList ++ rest) = l.readOption s (attached? rest) := by
  obtain ⟨hname, -, hchars⟩ := name_spec s
  have hrun : ∀ c ∈ s.name.toList, (c != '=') = true := fun c hc => bne_iff_ne.mpr (hchars c hc)
  unfold readLong
  rw [takeWhile_append hrun hrest, dropWhile_append hrun hrest, String.ofList_toList]
  dsimp only
  rw [hname]
  cases rest <;> rfl

/-- A long name by itself waits for its value. -/
theorem read_long (h : l.Holds given) (s : Setting) :
    l.read ("--" ++ s.name) = .ok ⟨given, some (s, none), false⟩ := by
  obtain ⟨-, hne, -⟩ := name_spec s
  obtain ⟨c, cs, hcs⟩ := List.exists_cons_of_ne_nil hne
  have harg : ("--" ++ s.name).toList = '-' :: '-' :: c :: cs := by simp [hcs]
  have hread := @readLong_name l s [] stops_nil
  rw [List.append_nil, hcs] at hread
  rw [read_of_dashes h harg, hread]
  exact readOption_alone h s

/-- A long name with an equals sign has its value after it. -/
theorem read_longEquals (h : l.Holds given) {s : Setting} {value : String}
    (hnew : given.lookup s = none) (hpath : s.isPath = true → value ≠ "") :
    l.read ("--" ++ s.name ++ "=" ++ value) = .ok ⟨(s, value) :: given, none, false⟩ := by
  obtain ⟨-, hne, -⟩ := name_spec s
  obtain ⟨c, cs, hcs⟩ := List.exists_cons_of_ne_nil hne
  have harg : ("--" ++ s.name ++ "=" ++ value).toList =
      '-' :: '-' :: c :: (cs ++ '=' :: value.toList) := by simp [hcs]
  have hread := @readLong_name l s ('=' :: value.toList) (stops_cons.mpr (by decide))
  rw [hcs, List.cons_append] at hread
  rw [read_of_dashes h harg, hread, attached?, String.ofList_toList]
  exact readOption_attached h hnew hpath

/-- The short name by itself waits for its value. -/
theorem read_short (h : l.Holds given) :
    l.read "-c" = .ok ⟨given, some (.config, none), false⟩ := by
  unfold read
  rw [h.optionsEnded, if_neg Bool.false_ne_true]
  exact readOption_alone h .config

/-- The short name with an equals sign has its value after it. -/
theorem read_shortEquals (h : l.Holds given) {value : String}
    (hnew : given.lookup .config = none) (hpath : value ≠ "") :
    l.read ("-c=" ++ value) = .ok ⟨(.config, value) :: given, none, false⟩ := by
  have harg : ("-c=" ++ value).toList = '-' :: 'c' :: '=' :: value.toList := by simp
  unfold read
  rw [h.optionsEnded, if_neg Bool.false_ne_true, harg]
  show l.readOption .config (some (String.ofList value.toList)) = _
  rw [String.ofList_toList]
  exact readOption_attached h hnew fun _ => hpath

/-- The short name may also have its value right after it. -/
theorem read_shortJoined (h : l.Holds given) {value : String}
    (hnew : given.lookup .config = none) (hpath : value ≠ "")
    (hjoined : value.toList.head? ≠ some '=') :
    l.read ("-c" ++ value) = .ok ⟨(.config, value) :: given, none, false⟩ := by
  have hne : value.toList ≠ [] := fun hnil => hpath (String.toList_eq_nil_iff.mp hnil)
  have hother : ∀ rest, value.toList ≠ '=' :: rest := by
    intro rest hrest
    rw [hrest] at hjoined
    exact hjoined rfl
  have harg : ("-c" ++ value).toList = '-' :: 'c' :: value.toList := by simp
  have hshort := readShort.eq_3 l value.toList hne hother
  unfold read
  rw [h.optionsEnded, if_neg Bool.false_ne_true, harg]
  show l.readShort ('c' :: value.toList) = _
  rw [hshort, String.ofList_toList]
  exact readOption_attached h hnew fun _ => hpath

/-- One option more is held after its arguments, however it is written. -/
theorem read_args (h : l.Holds given) {o : Spelled} (ho : o.IsLegal)
    (hnew : given.lookup o.setting = none) :
    ∃ l' : CommandLine, o.args.foldlM read l = .ok l' ∧
      l'.Holds ((o.setting, o.value) :: given) := by
  obtain ⟨s, value, spelling⟩ := o
  obtain ⟨hpath, halone, hshort, hjoined⟩ := ho
  dsimp only at hpath halone hshort hjoined hnew
  -- a value of its own is taken in by the next settling, an attached one at once
  have hsettled : Holds ⟨(s, value) :: given, none, false⟩ ((s, value) :: given) := rfl
  have hwaiting := holds_value hnew hpath
  cases spelling with
  | long =>
    refine ⟨_, ?_, hwaiting⟩
    show (read l ("--" ++ s.name)).bind (fun l => (read l value).bind .ok) = _
    rw [read_long h s]
    show (read ⟨given, some (s, none), false⟩ value).bind .ok = _
    rw [read_value (halone (.inl rfl))]
    rfl
  | longEquals =>
    refine ⟨_, ?_, hsettled⟩
    show (read l ("--" ++ s.name ++ "=" ++ value)).bind .ok = _
    rw [read_longEquals h hnew hpath]
    rfl
  | short =>
    obtain rfl := hshort (.inl rfl)
    refine ⟨_, ?_, hwaiting⟩
    show (read l "-c").bind (fun l => (read l value).bind .ok) = _
    rw [read_short h]
    show (read ⟨given, some (.config, none), false⟩ value).bind .ok = _
    rw [read_value (halone (.inr rfl))]
    rfl
  | shortJoined =>
    obtain rfl := hshort (.inr (.inl rfl))
    refine ⟨_, ?_, hsettled⟩
    show (read l ("-c" ++ value)).bind .ok = _
    rw [read_shortJoined h hnew (hpath rfl) (hjoined rfl)]
    rfl
  | shortEquals =>
    obtain rfl := hshort (.inr (.inr rfl))
    refine ⟨_, ?_, hsettled⟩
    show (read l ("-c=" ++ value)).bind .ok = _
    rw [read_shortEquals h hnew (hpath rfl)]
    rfl

/-! ## Reading a line -/

/-- The settings that the options stand for, in the order in which they are taken in. -/
def settings (options : List Spelled) : List (Setting × String) :=
  options.map fun o => (o.setting, o.value)

/-- What no option sets is not among the settings. -/
theorem lookup_settings_eq_none {options : List Spelled} {s : Setting}
    (h : ∀ o ∈ options, o.setting ≠ s) : (settings options).reverse.lookup s = none := by
  rw [List.lookup_eq_none_iff]
  intro entry hentry
  obtain ⟨o, ho, rfl⟩ := List.mem_map.mp (List.mem_reverse.mp hentry)
  exact bne_iff_ne.mpr (h o ho).symm

/-- Options that are written as they should be, each once, are all taken in. -/
theorem run_args {options : List Spelled} (hlegal : ∀ o ∈ options, o.IsLegal)
    (honce : (options.map (·.setting)).Nodup) :
    ∃ l : CommandLine, (options.flatMap Spelled.args).foldlM read {} = .ok l ∧
      l.Holds (settings options).reverse := by
  induction options using List.reverseRecOn with
  | nil => exact ⟨{}, rfl, rfl⟩
  | append_singleton options o ih =>
    obtain ⟨hlegal, ho⟩ := List.forall_mem_append.mp hlegal
    rw [List.map_append, List.nodup_append] at honce
    obtain ⟨honce, -, hother⟩ := honce
    have hnew : (settings options).reverse.lookup o.setting = none := by
      refine lookup_settings_eq_none fun o' ho' heq => ?_
      exact hother o'.setting (List.mem_map_of_mem ho') o.setting (by simp) heq
    obtain ⟨l, hrun, hl⟩ := ih hlegal honce
    obtain ⟨l', hargs, hl'⟩ := read_args hl (ho o (List.mem_singleton_self o)) hnew
    refine ⟨l', ?_, ?_⟩
    · rw [List.flatMap_append, List.foldlM_append, hrun, List.flatMap_singleton]
      exact hargs
    · simpa [settings] using hl'

/-- Among the settings each option is found with its value. -/
theorem lookup_settings {options : List Spelled} (honce : (options.map (·.setting)).Nodup)
    {o : Spelled} (ho : o ∈ options) :
    (settings options).reverse.lookup o.setting = some o.value := by
  induction options using List.reverseRecOn with
  | nil => cases ho
  | append_singleton options last ih =>
    rw [List.map_append, List.nodup_append] at honce
    obtain ⟨honce, -, hother⟩ := honce
    have hlast : (settings (options ++ [last])).reverse =
        (last.setting, last.value) :: (settings options).reverse := by simp [settings]
    rw [hlast]
    rcases List.mem_append.mp ho with ho | ho
    · have hne : o.setting ≠ last.setting :=
        hother o.setting (List.mem_map_of_mem ho) last.setting (by simp)
      rw [List.lookup_cons, beq_false_of_ne hne]
      exact ih honce ho
    · obtain rfl := List.mem_singleton.mp ho
      exact List.lookup_cons_self

/-- A line of options is read as the settings they stand for, in whatever order and however they are
written. -/
theorem parse_spelled {options : List Spelled} {said : Setting → Option String}
    (h : Spelled.Give options said) :
    ∃ l : CommandLine, parse (options.flatMap Spelled.args) = .ok l ∧ l.value? = said := by
  obtain ⟨l, hrun, hl⟩ := run_args h.legal h.once
  refine ⟨⟨(settings options).reverse, none, false⟩, ?_, funext fun s => ?_⟩
  · unfold parse
    rw [hrun]
    exact hl
  · show (settings options).reverse.lookup s = said s
    cases hsaid : said s with
    | some v =>
      obtain ⟨o, ho, rfl, rfl⟩ := (h.said s v).mp hsaid
      exact lookup_settings h.once ho
    | none =>
      refine lookup_settings_eq_none fun o ho heq => ?_
      have hgiven := (h.said s o.value).mpr ⟨o, ho, heq, rfl⟩
      rw [hsaid] at hgiven
      cases hgiven

end CommandLine

end VolumeBroker
