import Mathlib.Data.List.TakeWhile
import Shapewright.Proofs.Json.DistinctNames
import Shapewright.Proofs.Options.Texts
import Shapewright.Proofs.Text.Trimming

/-!
# Bags of options

The bag of a command is filled from three places in turn: the options file, the pairs one
after the other, and the flag for separate files. Whatever is entered under a key replaces
what was there, so each key has the value that was entered last, and stands where it was
entered first. Only pairs can fail, and one without an equals sign or with a blank key
always does.

Main definitions:

* `Member.putAll` — members put one after the other.
* `pairKey`, `pairText` — what is in front of the first equals sign of a pair, trimmed,
  and what is behind it.
* `IsMalformed` — a pair has no key.
* `Generation.Chooses` — what is entered last under a key.

Main results:

* `Member.get?_putAll`, `Member.names_putAll` — the last value and the first place count.
* `Generation.bagOver_eq_ok` — the bag as members put one after the other.
* `options_bag_is_last_writer_wins` — the whole of it.
-/

namespace Shapewright

open Json (Value)
open Json.Member (put get? names)

/-! ## Putting members one after the other -/

namespace Json.Member

variable {α : Type}

/-- The members with all entries put, one after the other. -/
def putAll (members entries : List (String × α)) : List (String × α) :=
  entries.foldl (fun members entry => put entry.1 entry.2 members) members

/-- Entries are put one after the other, the first one first. -/
theorem putAll_cons (members : List (String × α)) (entry : String × α)
    (entries : List (String × α)) :
    putAll members (entry :: entries) = putAll (put entry.1 entry.2 members) entries := rfl

theorem putAll_append (members xs ys : List (String × α)) :
    putAll members (xs ++ ys) = putAll (putAll members xs) ys := List.foldl_append

/-- What is behind is found only where there is nothing in front. -/
theorem get?_append (key : String) (xs ys : List (String × α)) :
    get? key (xs ++ ys) = (get? key xs).or (get? key ys) := by
  induction xs with
  | nil => rfl
  | cons x rest ih =>
    rw [List.cons_append, get?, get?]
    split
    · rfl
    · exact ih

/-- **The last entry of a key gives its value**, and if there is none, the member. So entries
are looked up from behind, which is why they are reversed here. -/
theorem get?_putAll (key : String) (members entries : List (String × α)) :
    get? key (putAll members entries) = (get? key entries.reverse).or (get? key members) := by
  induction entries generalizing members with
  | nil => rfl
  | cons entry rest ih =>
    -- the entry is put first, so that all entries behind it are looked at before
    rw [putAll_cons, ih, get?_put, List.reverse_cons, get?_append, Option.or_assoc]
    congr 1
    rw [get?]
    by_cases h : key = entry.1
    · rw [if_pos h, if_pos h.symm]
      rfl
    · rw [if_neg h, if_neg (Ne.symm h)]
      rfl

/-- **The first entry of a new key gives its place**, behind all members. Later entries of the
key change its value and not its place, as of several equal keys the first one is kept. -/
theorem names_putAll (members entries : List (String × α)) :
    names (putAll members entries) =
      names members ++ ((names entries).filter (· ∉ names members)).eraseDups := by
  induction entries generalizing members with
  | nil => exact (List.append_nil _).symm
  | cons entry rest ih =>
    have hnames : names (entry :: rest) = entry.1 :: names rest := rfl
    rw [putAll_cons, ih, names_put, hnames]
    by_cases h : entry.1 ∈ names members
    · rw [if_pos h, List.filter_cons_of_neg (by simpa using h)]
    · -- the key takes its place, and is no new key from there on
      have hlater : (names rest).filter (· ∉ names members ++ [entry.1]) =
          ((names rest).filter (· ∉ names members)).filter fun key => !key == entry.1 := by
        rw [List.filter_filter]
        refine List.filter_congr fun key _ => ?_
        by_cases hkey : key = entry.1 <;> simp [hkey]
      rw [if_neg h, List.filter_cons_of_pos (by simpa using h), List.eraseDups_cons, hlater,
        List.append_assoc, List.singleton_append]

/-- Putting never makes two members of one name: an entry with a known name takes the place of
the old one. -/
theorem nodup_names_putAll {members : List (String × α)} (entries : List (String × α))
    (h : (names members).Nodup) : (names (putAll members entries)).Nodup := by
  induction entries generalizing members with
  | nil => exact h
  | cons entry rest ih => exact ih (nodup_names_put entry.1 entry.2 h)

end Json.Member

/-! ## Pairs -/

/-- The key of a pair: what stands in front of the first equals sign, trimmed. -/
def pairKey (pair : String) : String :=
  String.ofList (Text.trim (pair.toList.takeWhile (· != '=')))

/-- What stands behind the first equals sign. -/
def pairText (pair : String) : String :=
  String.ofList ((pair.toList.dropWhile (· != '=')).drop 1)

/-- There is no equals sign, or nothing but blanks in front of the first one. -/
def IsMalformed (pair : String) : Prop :=
  '=' ∉ pair.toList ∨ ∀ c ∈ pair.toList.takeWhile (· != '='), Text.isSpace c = true

-- the characters are gone through one by one, and not all that there are
instance (pair : String) : Decidable (IsMalformed pair) :=
  @instDecidableOr _ _ inferInstance (List.decidableBAll _ _)

/-- The value that a text stands for: the document that it is, or else the text itself. -/
inductive StandsFor (text : String) : Value → Prop where
  | document {v : Value} (hparse : Value.parse text = .ok v) : StandsFor text v
  | verbatim (hparse : ∀ v, Value.parse text ≠ .ok v) : StandsFor text (.string text)

/-- The text behind the equals sign stands for a document if it is one, and for itself if not,
so that words need no quotes. -/
theorem readOptionValue_eq_iff {text : String} {v : Value} :
    readOptionValue text = v ↔ StandsFor text v := by
  rw [readOptionValue]
  cases hparse : Value.parse text with
  | ok document =>
    constructor
    · rintro rfl
      exact .document hparse
    · rintro (hdocument | hnone)
      · exact Except.ok.inj (hparse.symm.trans hdocument)
      · exact absurd hparse (hnone document)
  -- no document at all: the text is its own value
  | error fault =>
    constructor
    · rintro rfl
      exact .verbatim fun v hv => nomatch hparse.symm.trans hv
    · rintro (hdocument | hnone)
      · cases hparse.symm.trans hdocument
      · rfl

/-- A pair as an entry. -/
def pairEntry (pair : String) : String × Value := (pairKey pair, readOptionValue (pairText pair))

/-- Nothing is left from the first equals sign on exactly if there is none. -/
theorem dropWhile_eq_nil_iff_not_mem (pair : String) :
    pair.toList.dropWhile (· != '=') = [] ↔ '=' ∉ pair.toList := by
  rw [List.dropWhile_eq_nil_iff]
  constructor
  · exact fun h hmem => absurd (h '=' hmem) (by decide)
  · rintro h c hc
    rw [bne_iff_ne]
    rintro rfl
    exact h hc

/-- A pair that is not malformed is read as its key and its value. -/
theorem readPair_eq_ok {pair : String} (h : ¬ IsMalformed pair) :
    readPair pair = .ok (pairEntry pair) := by
  rw [IsMalformed, not_or, ← Text.trim_eq_nil_iff, ← dropWhile_eq_nil_iff_not_mem] at h
  obtain ⟨c, value, hvalue⟩ := List.exists_cons_of_ne_nil h.1
  obtain ⟨d, key, hkey⟩ := List.exists_cons_of_ne_nil h.2
  rw [readPair, hvalue, hkey, pairEntry, pairKey, pairText, hvalue, hkey, List.drop_one,
    List.tail_cons]

/-- A malformed pair is refused, for the want of a sign or for the want of a key. -/
theorem exists_readPair_eq_error {pair : String} (h : IsMalformed pair) :
    ∃ failure, readPair pair = .error failure := by
  rw [readPair]
  cases hvalue : pair.toList.dropWhile (· != '=') with
  | nil => exact ⟨_, rfl⟩
  | cons c value =>
    -- there is an equals sign, so it is the key that is missing
    rcases h with hmem | hblank
    · rw [← dropWhile_eq_nil_iff_not_mem, hvalue] at hmem
      cases hmem
    · rw [← Text.trim_eq_nil_iff] at hblank
      rw [hblank]
      exact ⟨_, rfl⟩

section

variable {members : List (String × Value)} {pairs : List String}

/-- Pairs that are well-formed are all put, in the order of the command line. -/
theorem addPairs_eq_ok (h : ∀ pair ∈ pairs, ¬ IsMalformed pair) :
    addPairs members pairs = .ok (Json.Member.putAll members (pairs.map pairEntry)) := by
  induction pairs generalizing members with
  | nil => rfl
  | cons pair rest ih =>
    obtain ⟨hpair, hrest⟩ := List.forall_mem_cons.mp h
    rw [addPairs, readPair_eq_ok hpair]
    exact ih hrest

/-- **One malformed pair is enough to fail**, and without one the pairs are all read. Which of
several malformed ones is reported does not matter here. -/
theorem exists_addPairs_eq_error_iff :
    (∃ failure, addPairs members pairs = .error failure) ↔ ∃ pair ∈ pairs, IsMalformed pair := by
  constructor
  · rintro ⟨failure, hfailure⟩
    by_contra hnone
    have hall : ∀ pair ∈ pairs, ¬ IsMalformed pair := fun pair hpair h => hnone ⟨pair, hpair, h⟩
    cases (addPairs_eq_ok hall).symm.trans hfailure
  · rintro ⟨pair, hpair, h⟩
    induction pairs generalizing members with
    | nil => cases hpair
    | cons first rest ih =>
      rw [addPairs]
      by_cases hfirst : IsMalformed first
      · obtain ⟨failure, hfailure⟩ := exists_readPair_eq_error hfirst
        exact ⟨failure, bind_eq_error_iff.mpr (Or.inl hfailure)⟩
      · -- the first pair is read, so the malformed one is behind it
        have hrest : pair ∈ rest := by
          rcases List.mem_cons.mp hpair with rfl | hrest
          · exact absurd h hfirst
          · exact hrest
        rw [readPair_eq_ok hfirst]
        exact ih hrest

/-- A key is looked up in the first entry, then in the others. -/
theorem get?_pairEntry (key pair : String) (entries : List (String × Value)) :
    get? key (pairEntry pair :: entries) =
      if pairKey pair = key then some (readOptionValue (pairText pair)) else get? key entries := by
  rw [get?]
  by_cases h : pairKey pair = key
  · rw [if_pos h, if_pos (show (pairEntry pair).1 = key from h)]
    rfl
  · rw [if_neg h, if_neg (show ¬ (pairEntry pair).1 = key from h)]

/-- The pair in front is the last to be asked: those behind it hide what it says. -/
theorem get?_reverse_pairEntries_cons (key pair : String) :
    get? key ((pair :: pairs).map pairEntry).reverse =
      (get? key (pairs.map pairEntry).reverse).or
        (if pairKey pair = key then some (readOptionValue (pairText pair)) else none) := by
  rw [List.map_cons, List.reverse_cons, Json.Member.get?_append, get?_pairEntry]
  rfl

/-- No pair speaks of a key exactly if none has it. -/
theorem get?_reverse_pairEntries_eq_none_iff {key : String} :
    get? key (pairs.map pairEntry).reverse = none ↔ ∀ pair ∈ pairs, pairKey pair ≠ key := by
  induction pairs with
  | nil => simp [get?]
  | cons first rest ih =>
    rw [get?_reverse_pairEntries_cons, Option.or_eq_none_iff, ih, List.forall_mem_cons, and_comm]
    simp

/-- The last pair of a key gives the value that is found from behind: there is a pair with the
key, none behind it has it too, and the value is what its text stands for. -/
theorem get?_reverse_pairEntries_eq_some_iff {key : String} {v : Value} :
    get? key (pairs.map pairEntry).reverse = some v ↔
      ∃ before pair after, pairs = before ++ pair :: after ∧ pairKey pair = key ∧
        (∀ later ∈ after, pairKey later ≠ key) ∧ StandsFor (pairText pair) v := by
  induction pairs with
  | nil => simp [get?]
  | cons first rest ih =>
    rw [get?_reverse_pairEntries_cons, Option.or_eq_some_iff, ih,
      get?_reverse_pairEntries_eq_none_iff]
    constructor
    · rintro (⟨before, pair, after, rfl, h⟩ | ⟨hrest, h⟩)
      · -- the pair is one of those behind, with the first one among those before it
        exact ⟨first :: before, pair, after, rfl, h⟩
      · rw [Option.ite_none_right_eq_some] at h
        exact ⟨[], first, rest, rfl, h.1, hrest, readOptionValue_eq_iff.mp (Option.some.inj h.2)⟩
    · rintro ⟨before, pair, after, hpairs, hkey, hlast, hvalue⟩
      rcases List.cons_eq_append_iff.mp hpairs with ⟨-, hfirst⟩ | ⟨before', -, hrest⟩
      · obtain ⟨rfl, rfl⟩ := List.cons.inj hfirst
        rw [if_pos hkey, readOptionValue_eq_iff.mpr hvalue]
        exact Or.inr ⟨hlast, rfl⟩
      · -- and the other way round
        exact Or.inl ⟨before', pair, after, hrest, hkey, hlast, hvalue⟩

end

/-! ## Bags -/

namespace Generation

variable {what : Generation} {files : Files} {members : List (String × Value)} {key : String}
  {v : Value}

/-- The flag for separate files as an entry. -/
def flagEntries (what : Generation) : List (String × Value) :=
  if what.multipleFiles then [("multipleFiles", .boolean true)] else []

/-- The bag is what the options file has, with the pairs put over it and the switch over all. -/
theorem bagOver_eq_ok (h : ∀ pair ∈ what.pairs, ¬ IsMalformed pair) :
    what.bagOver members = .ok (.object
      (Json.Member.putAll members (what.pairs.map pairEntry ++ what.flagEntries))) := by
  rw [bagOver, addPairs_eq_ok h, Json.Member.putAll_append, flagEntries]
  cases what.multipleFiles <;> rfl

/-- The keys of the pairs and the flag, in the order in which they are entered. -/
def enteredKeys (what : Generation) : List String :=
  what.pairs.map pairKey ++ if what.multipleFiles then ["multipleFiles"] else []

/-- The keys that are entered on the command line, in the order in which they are put. -/
theorem names_entries (what : Generation) :
    names (what.pairs.map pairEntry ++ what.flagEntries) = what.enteredKeys := by
  rw [names, List.map_append, List.map_map, enteredKeys, flagEntries]
  cases what.multipleFiles <;> rfl

/-- What is entered last under a key: the flag, or the last pair of the key, or what the
file has. -/
inductive Chooses (what : Generation) (members : List (String × Value)) (key : String) :
    Value → Prop where
  | flag (hflag : what.multipleFiles = true ∧ key = "multipleFiles") :
      Chooses what members key (.boolean true)
  | pair {v : Value} {before after : List String} {pair : String}
      (hflag : ¬ (what.multipleFiles = true ∧ key = "multipleFiles"))
      (hpairs : what.pairs = before ++ pair :: after) (hkey : pairKey pair = key)
      (hlast : ∀ later ∈ after, pairKey later ≠ key) (hvalue : StandsFor (pairText pair) v) :
      Chooses what members key v
  | file {v : Value} (hflag : ¬ (what.multipleFiles = true ∧ key = "multipleFiles"))
      (hpairs : ∀ pair ∈ what.pairs, pairKey pair ≠ key) (hmember : get? key members = some v) :
      Chooses what members key v

/-- The switch enters one key, and only if it is given. -/
theorem get?_flagEntries (what : Generation) (key : String) :
    get? key what.flagEntries =
      if what.multipleFiles = true ∧ key = "multipleFiles" then some (.boolean true) else none := by
  rw [flagEntries]
  cases what.multipleFiles with
  | false => simp [get?]
  | true => simp [get?, eq_comm]

/-- **What is found in the bag is what was entered last.** The flag comes behind the pairs,
and these behind the members of the file, in the order in which they are put. -/
theorem get?_putAll_eq_some_iff :
    get? key (Json.Member.putAll members (what.pairs.map pairEntry ++ what.flagEntries)) =
      some v ↔ what.Chooses members key v := by
  -- there is one entry of a flag at most
  have hreverse : what.flagEntries.reverse = what.flagEntries := by
    rw [flagEntries]
    split <;> rfl
  rw [Json.Member.get?_putAll, List.reverse_append, hreverse, Json.Member.get?_append,
    get?_flagEntries]
  -- the flag is put last, and hides the pairs and the file
  by_cases hflag : what.multipleFiles = true ∧ key = "multipleFiles"
  · rw [if_pos hflag, Option.some_or, Option.some_or]
    constructor
    · rintro ⟨⟩
      exact .flag hflag
    · rintro (_ | hnot | hnot)
      · rfl
      · exact absurd hflag hnot
      · exact absurd hflag hnot
  · rw [if_neg hflag, Option.none_or, Option.or_eq_some_iff, get?_reverse_pairEntries_eq_some_iff,
      get?_reverse_pairEntries_eq_none_iff]
    constructor
    · rintro (⟨before, pair, after, hpairs, hkey, hlast, hvalue⟩ | ⟨hpairs, hmember⟩)
      · exact .pair hflag hpairs hkey hlast hvalue
      · exact .file hflag hpairs hmember
    · rintro (hyes | ⟨-, hpairs, hkey, hlast, hvalue⟩ | ⟨-, hpairs, hmember⟩)
      · exact absurd hyes hflag
      · exact Or.inl ⟨_, _, _, hpairs, hkey, hlast, hvalue⟩
      · exact Or.inr ⟨hpairs, hmember⟩

/-- Once the options file is read, only a malformed pair can fail. -/
theorem exists_bagOver_eq_error_iff :
    (∃ failure, what.bagOver members = .error failure) ↔ ∃ pair ∈ what.pairs, IsMalformed pair := by
  have hpairs : (∃ failure, addPairs members what.pairs = .error failure) ↔
      ∃ pair ∈ what.pairs, IsMalformed pair := exists_addPairs_eq_error_iff
  -- the flag that is put behind the pairs cannot fail
  rw [← hpairs, bagOver]
  cases addPairs members what.pairs with
  | ok entries => exact iff_of_false (fun ⟨_, h⟩ => nomatch h) (fun ⟨_, h⟩ => nomatch h)
  | error failure => exact iff_of_true ⟨failure, rfl⟩ ⟨failure, rfl⟩

/-- The members of an options file have distinct names. -/
theorem nodup_names_of_fileMembers (h : what.fileMembers files = .ok members) :
    (names members).Nodup := by
  rcases fileMembers_eq_ok_iff.mp h with ⟨-, rfl⟩ | ⟨path, text, -, -, head, rest, -, hhead⟩
  · exact List.nodup_nil
  · exact (Value.namesDistinct_of_parse hhead).1

end Generation

/-- **In a bag of options, what was entered last counts.** Given the members of the options
file, a bag fails exactly if a pair has no equals sign, or nothing but blanks in front of
its first one. Any other bag is an object in which each key is found once. It starts with
the keys of the file in their order, and then has the new keys in the order in which they
were entered first. Under each key stands what was entered last: the flag, or else the
last pair with that key, or else what the file has; and there is nothing under a key that
none of them has. -/
theorem options_bag_is_last_writer_wins {what : Generation} {files : Files}
    {members : List (String × Value)} (hfile : what.fileMembers files = .ok members) :
    ((∃ failure, what.bag files = .error failure) ↔ ∃ pair ∈ what.pairs, IsMalformed pair) ∧
    ∀ bag, what.bag files = .ok bag → ∃ entries, bag = .object entries ∧
      (names entries).Nodup ∧
      names entries =
        names members ++ (what.enteredKeys.filter (· ∉ names members)).eraseDups ∧
      ∀ key v, get? key entries = some v ↔ what.Chooses members key v := by
  have hbag : what.bag files = what.bagOver members := by
    rw [Generation.bag, hfile]
    rfl
  have hfails : (∃ failure, what.bagOver members = .error failure) ↔
      ∃ pair ∈ what.pairs, IsMalformed pair := Generation.exists_bagOver_eq_error_iff
  rw [hbag]
  refine ⟨hfails, fun bag h => ?_⟩
  -- a bag has been made, so that all pairs were well-formed
  have hpairs : ∀ pair ∈ what.pairs, ¬ IsMalformed pair := by
    intro pair hpair hmalformed
    obtain ⟨failure, hfailure⟩ := hfails.mpr ⟨pair, hpair, hmalformed⟩
    cases hfailure.symm.trans h
  rw [Generation.bagOver_eq_ok hpairs, Except.ok.injEq] at h
  refine ⟨_, h.symm, ?_, ?_, fun key v => Generation.get?_putAll_eq_some_iff⟩
  · exact Json.Member.nodup_names_putAll _ (Generation.nodup_names_of_fileMembers hfile)
  · rw [Json.Member.names_putAll, Generation.names_entries]

/-- An options file with two members. -/
def twoOptions : Files where
  entries := [(["o.json"], .text "\x7b\"useLombok\":false,\"packageName\":\"x\"\x7d")]
  here := []

/-- The same options once more, between and behind new ones. -/
def enteredAgain : Generation where
  selection := { inputs := [], pointer? := none, filter? := none }
  target := "java"
  rootName := "Root"
  pairs := ["indent=2", "packageName=a=b", " useLombok =1", "brand=", "useLombok=true"]
  optionsFile? := some "o.json"
  multipleFiles := true
  destination := .console

/-- Every option has its last value, and the new ones stand behind those of the file. -/
theorem options_bag_is_last_writer_wins_enteredAgain :
    enteredAgain.fileMembers twoOptions =
        .ok [("useLombok", .boolean false), ("packageName", .string "x")] ∧
      ∃ entries, enteredAgain.bag twoOptions = .ok (.object entries) ∧
        names entries = ["useLombok", "packageName", "indent", "brand", "multipleFiles"] ∧
        get? "useLombok" entries = some (.boolean true) ∧
        get? "packageName" entries = some (.string "a=b") ∧
        get? "multipleFiles" entries = some (.boolean true) := by
  have hfile : enteredAgain.fileMembers twoOptions =
      .ok [("useLombok", .boolean false), ("packageName", .string "x")] := by
    with_unfolding_all rfl
  obtain ⟨hfails, hbag⟩ := options_bag_is_last_writer_wins hfile
  refine ⟨hfile, ?_⟩
  cases h : enteredAgain.bag twoOptions with
  | error failure =>
    have hpairs : ¬ ∃ pair ∈ enteredAgain.pairs, IsMalformed pair := by decide +kernel
    exact absurd (hfails.mp ⟨failure, h⟩) hpairs
  | ok bag =>
    obtain ⟨entries, rfl, -, hnames, hvalues⟩ := hbag bag h
    refine ⟨entries, rfl, ?_, ?_, ?_, ?_⟩
    · rw [hnames]
      decide +kernel
    · have hlast : enteredAgain.pairs = enteredAgain.pairs.take 4 ++ "useLombok=true" :: [] := rfl
      refine (hvalues _ _).mpr (.pair (by decide) hlast (by decide +kernel) nofun (.document ?_))
      with_unfolding_all rfl
    · have hlast : enteredAgain.pairs =
          ["indent=2"] ++ "packageName=a=b" :: enteredAgain.pairs.drop 2 := rfl
      have hparse : Value.parse "a=b" = .error ⟨.expectedValue, ⟨1, 1⟩⟩ := by
        with_unfolding_all rfl
      exact (hvalues _ _).mpr (.pair (by decide) hlast (by decide +kernel) (by decide +kernel)
        (.verbatim fun v hv => nomatch hparse.symm.trans hv))
    · exact (hvalues _ _).mpr (.flag ⟨rfl, rfl⟩)

end Shapewright
