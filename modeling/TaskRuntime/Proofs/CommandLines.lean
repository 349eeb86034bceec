import Mathlib.Data.List.Basic
import Mathlib.Data.List.Induction
import TaskRuntime.Demo.Program
import TaskRuntime.Proofs.Numerals

/-!
# Command lines of the demo

The command line of the demo is read from left to right. Whether an argument is an option or a value
depends on its position alone, so a value may look like an option.

## Numbers

The options for numbers take what `Demo.Positive` describes: white space, a plus sign or none, and
at least one digit, as long as the number is positive and not too large. The reader accepts exactly
these texts (`Demo.readPositive_eq_some_iff`), and what it does not accept leaves the place for the
number as it was (`Demo.storePositive_exact`).

## The grammar

A command line is a sequence of pairs of an option and a value (`Demo.Spells`), or such a sequence
with an argument behind it that offends (`Demo.Offends`). One of the two is the case for every list
of arguments (`Demo.spelled_or_offending`). In the first case the program runs with the last value
of each option, and with the default for an option that does not occur. In the second case the
argument that offends decides, whatever follows it. `Demo.run_by_grammar` puts this together.
-/

namespace TaskRuntime

/-! ### The text of a number -/

namespace Numeral

/-- The text of a number denotes it. -/
theorem isNumeral_ofInt (n : Int) : IsNumeral (ofInt n) n := by
  cases n with
  | ofNat n =>
    have hplain : IsNumeral (ofNat n) (value (ofNat n)) :=
      .plain (List.forall_mem_nil _) (ofNat_ne_nil n) fun _ ↦ isDigit_of_mem_ofNat
    rwa [value_ofNat] at hplain
  | negSucc n =>
    have hminus : IsNumeral (45 :: ofNat (n + 1)) (-(value (ofNat (n + 1)) : Int)) :=
      .minus (List.forall_mem_nil _) (ofNat_ne_nil _) fun _ ↦ isDigit_of_mem_ofNat
    rwa [value_ofNat] at hminus

end Numeral

namespace Demo

/-! ### Numbers in full -/

/-- **The texts that an option for numbers takes.** -/
structure Positive (text : Bytes) (n : Int) : Prop where
  /-- White space, a plus sign or none, and at least one digit, which denote the number. -/
  spelled : ∃ blanks sign digits : Bytes, text = blanks ++ sign ++ digits ∧
    (∀ b ∈ blanks, Numeral.isBlank b = true) ∧ (sign = [] ∨ sign = Bytes.utf8 "+") ∧
    digits ≠ [] ∧ (∀ b ∈ digits, Numeral.isDigit b = true) ∧ n = Numeral.value digits
  /-- The number is positive. -/
  pos : 1 ≤ n
  /-- It is not too large. -/
  small : n ≤ maxNumber

variable {text value : Bytes} {n : Int}

/-- A numeral that denotes a positive number has no minus sign. -/
theorem positive_iff : Positive text n ↔ Numeral.IsNumeral text n ∧ 1 ≤ n ∧ n ≤ maxNumber := by
  constructor
  · rintro ⟨⟨blanks, sign, digits, rfl, hblanks, hsign, hne, hdigits, rfl⟩, hpos, hsmall⟩
    refine ⟨?_, hpos, hsmall⟩
    rcases hsign with rfl | rfl
    · rw [List.append_nil]
      exact .plain hblanks hne hdigits
    · rw [List.append_assoc]
      exact .plus hblanks hne hdigits
  · rintro ⟨hnumeral, hpos, hsmall⟩
    refine ⟨?_, hpos, hsmall⟩
    cases hnumeral with
    | @plain blanks digits hblanks hne hdigits =>
      exact ⟨blanks, [], digits, by simp, hblanks, .inl rfl, hne, hdigits, rfl⟩
    | @plus blanks digits hblanks hne hdigits =>
      exact ⟨blanks, [43], digits, by simp, hblanks, .inr (by decide), hne, hdigits, rfl⟩
    | minus => omega

/-- **The reader accepts exactly these texts**, as the numbers that they denote. -/
theorem readPositive_eq_some_iff : readPositive text = some n ↔ Positive text n := by
  rw [positive_iff, ← Numeral.read?_eq_some_nil_iff, readPositive]
  constructor
  · intro h
    split at h
    · next m hread =>
      split at h
      · next hrange =>
        obtain rfl := Option.some.inj h
        exact ⟨hread, hrange⟩
      · cases h
    · cases h
  · rintro ⟨hread, hrange⟩
    rw [hread]
    dsimp only
    rw [if_pos hrange]

theorem readPositive_eq_none_iff : readPositive text = none ↔ ∀ n, ¬Positive text n := by
  simp only [← readPositive_eq_some_iff, Option.eq_none_iff_forall_ne_some, ne_eq]

/-- The reader with a place for the number: whether it has put a number there, and what is there
afterwards. -/
def storePositive (text : Bytes) (place : Int) : Bool × Int :=
  match readPositive text with
  | some n => (true, n)
  | none => (false, place)

theorem storePositive_eq_true_iff {place : Int} :
    storePositive text place = (true, n) ↔ Positive text n := by
  rw [← readPositive_eq_some_iff, storePositive]
  cases readPositive text <;> simp

theorem storePositive_of_not {place : Int} (h : ∀ n, ¬Positive text n) :
    storePositive text place = (false, place) := by
  rw [storePositive, readPositive_eq_none_iff.2 h]

/-- **Exactly the positive numbers are accepted**: a text that spells one is accepted and puts it in
the place, any other text is refused and leaves the place as it was, and the text that is written
for a number in the range is accepted as this number. -/
theorem storePositive_exact :
    (∀ text place n, storePositive text place = (true, n) ↔ Positive text n) ∧
    (∀ text place, (∀ n, ¬Positive text n) ↔ storePositive text place = (false, place)) ∧
    ∀ n place, 1 ≤ n → n ≤ maxNumber → storePositive (Numeral.ofInt n) place = (true, n) := by
  refine ⟨fun text place n ↦ storePositive_eq_true_iff, fun text place ↦ ?_, ?_⟩
  · refine ⟨storePositive_of_not, fun hrefused n hn ↦ ?_⟩
    rw [storePositive_eq_true_iff.2 hn] at hrefused
    cases congrArg Prod.fst hrefused
  · intro n place hpos hsmall
    exact storePositive_eq_true_iff.2 (positive_iff.2 ⟨Numeral.isNumeral_ofInt n, hpos, hsmall⟩)

/-- The largest number is written, and accepted. -/
theorem storePositive_largest :
    storePositive (Bytes.utf8 "2147483647") (-1) = (true, 2147483647) := by
  have hdigits : Numeral.ofInt 2147483647 = [50, 49, 52, 55, 52, 56, 51, 54, 52, 55] := by cbv
  have htext : Bytes.utf8 "2147483647" = [50, 49, 52, 55, 52, 56, 51, 54, 52, 55] := by decide
  rw [htext, ← hdigits]
  exact storePositive_exact.2.2 2147483647 (-1) (by decide) (by decide)

example : storePositive (Bytes.utf8 "\t +007") (-1) = (true, 7) := by decide

example : storePositive (Bytes.utf8 "7\x00") (-1) = (false, -1) := by decide

/-! ### Settings -/

/-- The argument that stands for an option for numbers. -/
def NumberOption.name : NumberOption → Bytes
  | .executors => Bytes.utf8 "--executors"
  | .requests => Bytes.utf8 "--requests"
  | .delay => Bytes.utf8 "--delay-ms"

/-- An option with a value. -/
inductive Setting
  /-- The configuration file. -/
  | config (path : Bytes)
  /-- The log level. -/
  | logLevel (name : Bytes)
  /-- A number. -/
  | number (which : NumberOption) (n : Int)

namespace Setting

/-- Which option is set. -/
def flag : Setting → Flag
  | config _ => .config
  | logLevel _ => .logLevel
  | number which _ => .number which

/-- The configuration file, if it is set. -/
def configPath? : Setting → Option Bytes
  | config path => some path
  | _ => none

/-- The log level, if it is set. -/
def logLevel? : Setting → Option Bytes
  | logLevel name => some name
  | _ => none

/-- A number, if it is set. -/
def number? (which : NumberOption) : Setting → Option Int
  | number other n => if other = which then some n else none
  | _ => none

/-- Sets the option. -/
def apply (o : Options) : Setting → Options
  | config path => { o with configPath := path }
  | logLevel name => { o with logLevel := some name }
  | number which n => o.setNumber n which

/-- **Two arguments spell a setting.** Any argument is a value, unless the option takes a number. -/
inductive Spelled : Setting → Bytes → Bytes → Prop
  /-- A configuration file. -/
  | config (path : Bytes) : Spelled (.config path) (Bytes.utf8 "--config") path
  /-- A log level. -/
  | logLevel (name : Bytes) : Spelled (.logLevel name) (Bytes.utf8 "--log-level") name
  /-- A number. -/
  | number (which : NumberOption) {n : Int} {value : Bytes} (h : Positive value n) :
    Spelled (.number which n) which.name value

end Setting

/-- **What settings amount to**: for each option its last value, or else its default. -/
def Options.ofSettings (l : List Setting) : Options where
  configPath := (l.filterMap Setting.configPath?).getLast?.getD (Bytes.utf8 "config.json")
  logLevel := (l.filterMap Setting.logLevel?).getLast?
  executors := (l.filterMap (Setting.number? .executors)).getLast?.getD 1
  requests := (l.filterMap (Setting.number? .requests)).getLast?.getD 5
  delay := (l.filterMap (Setting.number? .delay)).getLast?.getD 1000

theorem Options.ofSettings_concat (l : List Setting) (s : Setting) :
    ofSettings (l ++ [s]) = s.apply (ofSettings l) := by
  cases s with
  | config path =>
    simp [ofSettings, Setting.configPath?, Setting.logLevel?, Setting.number?, Setting.apply]
  | logLevel name =>
    simp [ofSettings, Setting.configPath?, Setting.logLevel?, Setting.number?, Setting.apply]
  | number which n =>
    cases which <;>
      simp [ofSettings, Setting.configPath?, Setting.logLevel?, Setting.number?, Setting.apply,
        Options.setNumber]

/-- Setting options one after the other leaves the last value of each. -/
theorem foldl_apply (l : List Setting) : l.foldl Setting.apply {} = Options.ofSettings l := by
  induction l using List.reverseRecOn with
  | nil => rfl
  | append_singleton l s ih => rw [List.foldl_concat, ih, Options.ofSettings_concat]

/-- What is found in the settings of one option is found in all. -/
theorem filterMap_filter_flag {A : Type} (f : Setting → Option A) (a : Flag)
    (hf : ∀ s, s.flag ≠ a → f s = none) (l : List Setting) :
    (l.filter (·.flag = a)).filterMap f = l.filterMap f := by
  rw [List.filterMap_filter]
  refine List.filterMap_congr fun s _ ↦ ?_
  by_cases hs : s.flag = a
  · simp [hs]
  · simp [hs, hf s hs]

/-- **The order matters for each option by itself only.** -/
theorem Options.ofSettings_congr {l l' : List Setting}
    (h : ∀ a, l.filter (·.flag = a) = l'.filter (·.flag = a)) : ofSettings l = ofSettings l' := by
  have hconfig : l.filterMap Setting.configPath? = l'.filterMap Setting.configPath? := by
    have hf (s : Setting) (hs : s.flag ≠ .config) : s.configPath? = none := by
      cases s <;> simp_all [Setting.flag, Setting.configPath?]
    rw [← filterMap_filter_flag _ .config hf, h, filterMap_filter_flag _ .config hf]
  have hlevel : l.filterMap Setting.logLevel? = l'.filterMap Setting.logLevel? := by
    have hf (s : Setting) (hs : s.flag ≠ .logLevel) : s.logLevel? = none := by
      cases s <;> simp_all [Setting.flag, Setting.logLevel?]
    rw [← filterMap_filter_flag _ .logLevel hf, h, filterMap_filter_flag _ .logLevel hf]
  have hnumber (which : NumberOption) :
      l.filterMap (Setting.number? which) = l'.filterMap (Setting.number? which) := by
    have hf (s : Setting) (hs : s.flag ≠ .number which) : s.number? which = none := by
      cases s <;> simp_all [Setting.flag, Setting.number?]
    rw [← filterMap_filter_flag _ (.number which) hf, h, filterMap_filter_flag _ (.number which) hf]
  rw [ofSettings, ofSettings, hconfig, hlevel, hnumber, hnumber, hnumber]

/-! ### The grammar -/

/-- **Arguments that are pairs** of an option and a value, and make these settings. -/
inductive Spells : List Setting → List Bytes → Prop
  /-- No argument. -/
  | nil : Spells [] []
  /-- A pair, and more pairs. -/
  | cons {s : Setting} {l : List Setting} {option value : Bytes} {rest : List Bytes}
    (h : s.Spelled option value) (hrest : Spells l rest) : Spells (s :: l) (option :: value :: rest)

/-- The arguments that ask for help. -/
def AsksHelp (argument : Bytes) : Prop :=
  argument = Bytes.utf8 "--help" ∨ argument = Bytes.utf8 "-h"

/-- The arguments that are options and take a value. -/
def TakesValue (argument : Bytes) : Prop :=
  argument = Bytes.utf8 "--config" ∨ argument = Bytes.utf8 "--log-level" ∨
    ∃ which : NumberOption, argument = which.name

/-- **An argument in option position offends**: the arguments from there on, and what the command
line amounts to. -/
inductive Offends : List Bytes → CommandLine → Prop
  /-- It asks for help. -/
  | help {argument : Bytes} (rest : List Bytes) (h : AsksHelp argument) :
    Offends (argument :: rest) .help
  /-- It is no option. -/
  | unknown {argument : Bytes} (rest : List Bytes) (hhelp : ¬AsksHelp argument)
    (hvalue : ¬TakesValue argument) : Offends (argument :: rest) (.unknownOption argument)
  /-- It is an option that takes a value, and there is none. -/
  | valueless {argument : Bytes} (h : TakesValue argument) :
    Offends [argument] (.unknownOption argument)
  /-- It is an option for numbers, and its value is none that it takes. -/
  | rejected (which : NumberOption) {value : Bytes} (rest : List Bytes)
    (h : ∀ n, ¬Positive value n) :
    Offends (which.name :: value :: rest) (.invalidValue which.name value)

/-- The program does not run when an argument offends. -/
theorem Offends.ne_run {tail : List Bytes} {c : CommandLine} (h : Offends tail c) (o : Options) :
    c ≠ .run o := by
  cases h <;> nofun

theorem ofArgument_help {argument : Bytes} (h : AsksHelp argument) :
    Flag.ofArgument argument = .help := if_pos h

theorem ofArgument_config : Flag.ofArgument (Bytes.utf8 "--config") = .config := by decide

theorem ofArgument_logLevel : Flag.ofArgument (Bytes.utf8 "--log-level") = .logLevel := by decide

theorem ofArgument_name (which : NumberOption) : Flag.ofArgument which.name = .number which := by
  cases which <;> decide

/-- An argument that is no option is unknown. -/
theorem ofArgument_unknown {argument : Bytes} (hhelp : ¬AsksHelp argument)
    (hvalue : ¬TakesValue argument) : Flag.ofArgument argument = .unknown := by
  simp only [TakesValue, not_or, not_exists] at hvalue
  obtain ⟨hconfig, hlevel, hnumber⟩ := hvalue
  rw [AsksHelp] at hhelp
  rw [Flag.ofArgument, if_neg hhelp, if_neg hconfig, if_neg hlevel]
  exact (if_neg (hnumber .executors)).trans
    ((if_neg (hnumber .requests)).trans (if_neg (hnumber .delay)))

/-! ### Reading -/

namespace CommandLine

variable {o : Options} {l : List Setting} {front tail : List Bytes} {c : CommandLine}

/-- A pair in front is taken as a setting. -/
theorem read_cons_of_spelled {s : Setting} {option value : Bytes} (h : s.Spelled option value)
    (o : Options) (rest : List Bytes) :
    read o (option :: value :: rest) = read (s.apply o) rest := by
  rw [read.eq_def]
  dsimp only
  cases h with
  | config path =>
    rw [ofArgument_config]
    rfl
  | logLevel name =>
    rw [ofArgument_logLevel]
    rfl
  | number which hn =>
    rw [ofArgument_name]
    dsimp only
    rw [readPositive_eq_some_iff.2 hn]
    rfl

/-- **The pairs in front** are taken as settings, one after the other. -/
theorem read_append_of_spells (h : Spells l front) (o : Options) (tail : List Bytes) :
    read o (front ++ tail) = read (l.foldl Setting.apply o) tail := by
  induction h generalizing o with
  | nil => rfl
  | @cons s l option value rest hs _ ih =>
    calc read o (option :: value :: (rest ++ tail))
      _ = read (s.apply o) (rest ++ tail) := read_cons_of_spelled hs o _
      _ = read (l.foldl Setting.apply (s.apply o)) tail := ih _

/-- **An argument that offends** decides, whatever has been set before and whatever follows. -/
theorem read_of_offends (h : Offends tail c) (o : Options) : read o tail = c := by
  rw [read.eq_def]
  cases h with
  | help rest hhelp =>
    dsimp only
    rw [ofArgument_help hhelp]
  | unknown rest hhelp hvalue =>
    dsimp only
    rw [ofArgument_unknown hhelp hvalue]
  | valueless hvalue =>
    dsimp only
    rcases hvalue with rfl | rfl | ⟨which, rfl⟩
    · rw [ofArgument_config]
    · rw [ofArgument_logLevel]
    · rw [ofArgument_name]
  | rejected which rest hvalue =>
    dsimp only
    rw [ofArgument_name]
    dsimp only
    rw [readPositive_eq_none_iff.2 hvalue]

end CommandLine

/-- **Every list of arguments** consists of pairs, or of pairs and an argument behind them that
offends. -/
theorem spelled_or_offending : ∀ arguments : List Bytes, (∃ l, Spells l arguments) ∨
    ∃ front tail l c, arguments = front ++ tail ∧ Spells l front ∧ Offends tail c
  | [] => .inl ⟨[], .nil⟩
  | [argument] => by
    right
    by_cases hhelp : AsksHelp argument
    · exact ⟨[], _, [], _, rfl, .nil, .help [] hhelp⟩
    by_cases hvalue : TakesValue argument
    · exact ⟨[], _, [], _, rfl, .nil, .valueless hvalue⟩
    · exact ⟨[], _, [], _, rfl, .nil, .unknown [] hhelp hvalue⟩
  | argument :: value :: rest => by
    -- A pair in front leaves the question to the arguments behind it.
    have hpair {s : Setting} (hs : s.Spelled argument value) :
        (∃ l, Spells l (argument :: value :: rest)) ∨ ∃ front tail l c,
          argument :: value :: rest = front ++ tail ∧ Spells l front ∧ Offends tail c := by
      rcases spelled_or_offending rest with ⟨l, hl⟩ | ⟨front, tail, l, c, rfl, hl, hc⟩
      · exact .inl ⟨s :: l, .cons hs hl⟩
      · exact .inr ⟨argument :: value :: front, tail, s :: l, c, rfl, .cons hs hl, hc⟩
    by_cases hhelp : AsksHelp argument
    · exact .inr ⟨[], _, [], _, rfl, .nil, .help _ hhelp⟩
    by_cases hvalue : TakesValue argument
    · rcases hvalue with rfl | rfl | ⟨which, rfl⟩
      · exact hpair (.config value)
      · exact hpair (.logLevel value)
      · by_cases hnumber : ∃ n, Positive value n
        · exact hpair (.number which hnumber.choose_spec)
        · exact .inr ⟨[], _, [], _, rfl, .nil, .rejected which rest (not_exists.1 hnumber)⟩
    · exact .inr ⟨[], _, [], _, rfl, .nil, .unknown _ hhelp hvalue⟩

/-- **Nothing behind it matters**: an argument that offends with its value offends likewise whatever
follows. -/
theorem Offends.whatever {argument value : Bytes} {rest : List Bytes} {c : CommandLine}
    (h : Offends (argument :: value :: rest) c) (rest' : List Bytes) :
    Offends (argument :: value :: rest') c := by
  cases h with
  | help _ hhelp => exact .help _ hhelp
  | unknown _ hhelp hvalue => exact .unknown _ hhelp hvalue
  | rejected which _ hvalue => exact .rejected which rest' hvalue

/-- An argument that offends is not the first one of a pair. -/
theorem Offends.not_spelled {argument value : Bytes} {rest : List Bytes} {c : CommandLine}
    (h : Offends (argument :: value :: rest) c) (s : Setting) : ¬s.Spelled argument value := by
  intro hs
  have halone : CommandLine.read {} [argument, value] = c :=
    CommandLine.read_of_offends (h.whatever []) {}
  rw [CommandLine.read_cons_of_spelled hs, CommandLine.read] at halone
  exact h.ne_run _ halone.symm

/-- **The first argument that offends** is the only one behind nothing but pairs. -/
theorem eq_of_offends {l l' : List Setting} {front front' tail tail' : List Bytes}
    {c c' : CommandLine} (hl : Spells l front) (hc : Offends tail c) (hl' : Spells l' front')
    (hc' : Offends tail' c') (h : front' ++ tail' = front ++ tail) : front' = front := by
  induction hl generalizing l' front' with
  | nil =>
    cases hl' with
    | nil => rfl
    | cons hs _ =>
      obtain rfl : _ = tail := h
      exact absurd hs (hc.not_spelled _)
  | cons hs _ ih =>
    cases hl' with
    | nil =>
      obtain rfl : tail' = _ := h
      exact absurd hs (hc'.not_spelled _)
    | cons _ hrest' =>
      simp only [List.cons_append, List.cons.injEq] at h
      obtain ⟨rfl, rfl, h⟩ := h
      rw [ih hrest' h]

/-! ### The program -/

/-- Pairs make the program run with what they set. -/
theorem ofArguments_of_spells {l : List Setting} {arguments : List Bytes}
    (h : Spells l arguments) : CommandLine.ofArguments arguments = .run (.ofSettings l) := by
  have hread := CommandLine.read_append_of_spells h {} []
  rwa [List.append_nil, foldl_apply, CommandLine.read] at hread

/-- Behind pairs, an argument that offends decides. -/
theorem ofArguments_of_offends {l : List Setting} {front tail : List Bytes} {c : CommandLine}
    (hl : Spells l front) (hc : Offends tail c) :
    CommandLine.ofArguments (front ++ tail) = c := by
  rw [CommandLine.ofArguments, CommandLine.read_append_of_spells hl,
    CommandLine.read_of_offends hc]

/-- **The program runs** exactly with the options that pairs set. -/
theorem ofArguments_eq_run_iff {arguments : List Bytes} {o : Options} :
    CommandLine.ofArguments arguments = .run o ↔ ∃ l, Spells l arguments ∧ o = .ofSettings l := by
  constructor
  · intro h
    rcases spelled_or_offending arguments with ⟨l, hl⟩ | ⟨front, tail, l, c, rfl, hl, hc⟩
    · rw [ofArguments_of_spells hl] at h
      exact ⟨l, hl, (CommandLine.run.inj h).symm⟩
    · rw [ofArguments_of_offends hl hc] at h
      exact absurd h (hc.ne_run o)
  · rintro ⟨l, hl, rfl⟩
    exact ofArguments_of_spells hl

/-- The exit status for a command line with which the program does not run. -/
def CommandLine.status : CommandLine → Nat
  | .help => 0
  | _ => 1

variable {K : Type} [Kernel K]

/-- The program ends at once when an argument offends: nothing has happened on any thread. -/
theorem run_of_offends {l : List Setting} {front tail : List Bytes} {c : CommandLine}
    (hl : Spells l front) (hc : Offends tail c) (program : Bytes) (file : Bytes → Option Bytes)
    (p : Threads K) : (run program (front ++ tail) file p).status = c.status ∧
      (run program (front ++ tail) file p).threads = p := by
  rw [run, ofArguments_of_offends hl hc]
  cases hc <;> exact ⟨rfl, rfl⟩

/-- **The command line is read by its grammar.** The program runs exactly with what pairs set, in
whatever order they set different options; in any other case there is a first argument that offends,
which decides how the program ends, whatever follows it. -/
theorem run_by_grammar (program : Bytes) (file : Bytes → Option Bytes) (p : Threads K) :
    (∀ arguments o, CommandLine.ofArguments arguments = .run o ↔
      ∃ l, Spells l arguments ∧ o = .ofSettings l) ∧
    (∀ l arguments, Spells l arguments →
      run program arguments file p = runWith (.ofSettings l) file p) ∧
    (∀ l l' arguments arguments', Spells l arguments → Spells l' arguments' →
      (∀ a, l.filter (·.flag = a) = l'.filter (·.flag = a)) →
      run program arguments file p = run program arguments' file p) ∧
    (∀ arguments, (∀ l, ¬Spells l arguments) → ∃ l front tail c, arguments = front ++ tail ∧
      Spells l front ∧ Offends tail c ∧
      ∀ l' front' tail' c', arguments = front' ++ tail' → Spells l' front' → Offends tail' c' →
        front' = front) ∧
    (∀ l front tail c, Spells l front → Offends tail c →
      CommandLine.ofArguments (front ++ tail) = c ∧
      (run program (front ++ tail) file p).status = c.status ∧
      (run program (front ++ tail) file p).threads = p) ∧
    ∀ argument value rest rest' c, Offends (argument :: value :: rest) c →
      Offends (argument :: value :: rest') c := by
  have hrun {l : List Setting} {arguments : List Bytes} (h : Spells l arguments) :
      run program arguments file p = runWith (.ofSettings l) file p := by
    rw [run, ofArguments_of_spells h]
  refine ⟨fun _ _ ↦ ofArguments_eq_run_iff, fun _ _ ↦ hrun, ?_, ?_, ?_, ?_⟩
  · intro l l' arguments arguments' hl hl' horder
    rw [hrun hl, hrun hl', Options.ofSettings_congr horder]
  · intro arguments hno
    rcases spelled_or_offending arguments with ⟨l, hl⟩ | ⟨front, tail, l, c, rfl, hl, hc⟩
    · exact absurd hl (hno l)
    · exact ⟨l, front, tail, c, rfl, hl, hc, fun l' front' tail' c' h hl' hc' ↦
        eq_of_offends hl hc hl' hc' h.symm⟩
  · exact fun l front tail c hl hc ↦
      ⟨ofArguments_of_offends hl hc, run_of_offends hl hc program file p⟩
  · exact fun _ _ _ rest' _ h ↦ h.whatever rest'

/-- A pair whose value looks like an option, and a pair that is overruled by a later one; behind
them an argument asks for help, and what follows it does not matter. -/
theorem run_by_grammar_help :
    let front := [Bytes.utf8 "--config", Bytes.utf8 "--help", Bytes.utf8 "--requests",
      Bytes.utf8 "9", Bytes.utf8 "--requests", Bytes.utf8 "+3"]
    let p : Threads Host := { world := { kernel := {} } }
    CommandLine.ofArguments front =
        .run { configPath := Bytes.utf8 "--help", requests := 3 } ∧
      (run [] (front ++ [Bytes.utf8 "-h", Bytes.utf8 "--bogus"]) (fun _ ↦ none) p).status = 0 := by
  intro front p
  have hpositive (text : Bytes) (n : Int) (h : readPositive text = some n) : Positive text n :=
    readPositive_eq_some_iff.1 h
  have hspells : Spells [.config (Bytes.utf8 "--help"), .number .requests 9,
      .number .requests 3] front :=
    .cons (.config _) (.cons (.number .requests (hpositive _ 9 (by decide)))
      (.cons (.number .requests (hpositive _ 3 (by decide))) .nil))
  have hoffends : Offends [Bytes.utf8 "-h", Bytes.utf8 "--bogus"] .help := .help _ (.inr rfl)
  obtain ⟨hrun, -, -, -, hstop, -⟩ := run_by_grammar [] (fun _ ↦ none) p
  exact ⟨(hrun front _).2 ⟨_, hspells, by decide⟩, (hstop _ _ _ _ hspells hoffends).2.1⟩

end Demo

end TaskRuntime
