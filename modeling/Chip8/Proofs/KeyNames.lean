import Chip8.CommandLine.Invocation
import Chip8.Proofs.Numerals
import Chip8.Proofs.RunReport
import Mathlib.Data.List.Forall2

/-!
# Keys on the command line

The keys that are held during a run are named on the command line by numerals in base sixteen. The
reader of numerals takes more than one digit, and the range of the keys rules out no spelling but
only numbers. So a key is named by every spelling of its digit: with blanks around it, a sign, a
mark, zeros in front, or in another script. A list of names holds the keys that are named in it.

## Key results

- `CommandLine.NamesKey`, `CommandLine.keyOfNumeral?_eq_some_iff_namesKey`: the names of a key
- `CommandLine.take_keysOption_eq_ok_iff`: the lists of names that are taken
- `CommandLine.keys_named`: what the option for held keys takes and refuses
- `CommandLine.read_key_signed`: a name that is longer than a digit
-/

namespace Chip8.CommandLine

open Text

/-- The text names the key: up to blanks around it, a plus sign, the mark of base sixteen, zeros in
    front and underscores between digits, it is the digit of the key, in either case or of any
    script. The key `0` may have a minus sign as well. -/
def NamesKey (text : String) (key : Nibble) : Prop :=
  ∃ sign zeros, IsNumeral text sign (List.replicate zeros 0 ++ [key.val]) ∧
    (sign = [] ∨ sign = ['+'] ∨ sign = ['-'] ∧ key = 0)

variable {text : String} {key : Nibble}

/-- The key that is read off a text is the one that it names. -/
theorem keyOfNumeral?_eq_some_iff_namesKey :
    keyOfNumeral? text = some key ↔ NamesKey text key := by
  rw [keyOfNumeral?_eq_some_iff, integer?_eq_some_iff]
  constructor
  · rintro ⟨sign, values, hnumeral, hsign⟩
    have hne : values ≠ [] := by
      obtain ⟨_, _, _, _, -, -, -, hrun⟩ := hnumeral
      exact hrun.ne_nil
    generalize hn : ofDigits 16 values = n at hsign
    generalize hk : (key.val : Int) = k at hsign
    -- Only zero is its own negative, so that a minus sign is for the key `0` alone.
    have hkey : n = key.val ∧ (sign = [] ∨ sign = ['+'] ∨ sign = ['-'] ∧ key = 0) := by
      cases hsign with
      | none => exact ⟨by omega, .inl rfl⟩
      | plus => exact ⟨by omega, .inr (.inl rfl)⟩
      | minus => exact ⟨by omega, .inr (.inr ⟨rfl, Fin.ext (by simp; omega)⟩)⟩
    -- A value below sixteen is written with zeros and one digit.
    obtain ⟨zeros, rfl⟩ := (ofDigits_eq_iff key.isLt hne).1 (hn.trans hkey.1)
    exact ⟨sign, zeros, hnumeral, hkey.2⟩
  · rintro ⟨sign, zeros, hnumeral, hsign⟩
    have hvalue : ofDigits 16 (List.replicate zeros 0 ++ [key.val]) = key.val :=
      (ofDigits_eq_iff key.isLt (by simp)).2 ⟨zeros, rfl⟩
    refine ⟨sign, _, hnumeral, ?_⟩
    rw [hvalue]
    obtain rfl | rfl | ⟨rfl, rfl⟩ := hsign
    · exact .none _
    · exact .plus _
    · exact .minus 0

/-- A text names one key at most. -/
private theorem NamesKey.unique {other : Nibble} (h : NamesKey text key)
    (h' : NamesKey text other) :
    key = other :=
  Option.some.inj ((keyOfNumeral?_eq_some_iff_namesKey.2 h).symm.trans
    (keyOfNumeral?_eq_some_iff_namesKey.2 h'))

/-- The text is the one digit of the key, in either case. -/
def IsKeyDigit (text : String) (key : Nibble) : Prop :=
  ∃ c, text = String.singleton c ∧ c.toUpper = hexDigit key.val

/-- A digit names its key. -/
private theorem IsKeyDigit.namesKey (h : IsKeyDigit text key) : NamesKey text key := by
  obtain ⟨c, rfl, h⟩ := h
  -- Upper case does not change the value of a hexadecimal digit.
  have hvalue : digitValue? .sixteen c = some key.val := by
    rw [digitValue?_toUpper (n := key.val) (by rw [h, hexDigits_of_lt key.isLt]; simp), h,
      digitValue?_hexDigit key.isLt]
  exact ⟨[], 0, ⟨[], [], [c], [], by simp, by simp, .none, .last hvalue⟩, .inl rfl⟩

/-- The option reads a text as the key that it names. -/
private theorem read_key_eq_ok_iff {value : Value} :
    Kind.key.read text = .ok value ↔ ∃ key, NamesKey text key ∧ value = .key key := by
  rw [Kind.read]
  cases hread : keyOfNumeral? text with
  | none =>
    simp only [reduceCtorEq, false_iff, not_exists, not_and]
    intro key hkey
    cases hread.symm.trans (keyOfNumeral?_eq_some_iff_namesKey.2 hkey)
  | some key =>
    have hkey := keyOfNumeral?_eq_some_iff_namesKey.1 hread
    constructor
    · intro h
      exact ⟨key, hkey, (Except.ok.inj h).symm⟩
    · rintro ⟨other, hother, rfl⟩
      rw [hkey.unique hother]

/-- A text that names no key is refused with the text. -/
private theorem read_key_of_not_namesKey (h : ∀ key, ¬NamesKey text key) :
    Kind.key.read text = .error (.notKey text) := by
  rw [Kind.read]
  cases hread : keyOfNumeral? text with
  | none => rfl
  | some key => exact absurd (keyOfNumeral?_eq_some_iff_namesKey.1 hread) (h key)

variable {texts before rest : List String}

/-- Texts are read as the keys that they name. -/
private theorem mapM_read_key_eq_ok_iff {values : List Value} :
    texts.mapM Kind.key.read = .ok values ↔
      ∃ keys, List.Forall₂ NamesKey texts keys ∧ values = keys.map .key := by
  -- Induction on the texts; the reading stops at the first one that is refused.
  induction texts generalizing values with
  | nil =>
    constructor
    · intro h
      cases h
      exact ⟨[], .nil, rfl⟩
    · rintro ⟨keys, hkeys, rfl⟩
      cases hkeys
      rfl
  | cons first rest ih =>
    rw [List.mapM_cons]
    constructor
    · intro h
      cases hfirst : Kind.key.read first with
      | error problem => rw [hfirst] at h; cases h
      | ok value =>
        cases hrest : rest.mapM Kind.key.read with
        | error problem => rw [hfirst, hrest] at h; cases h
        | ok values =>
          rw [hfirst, hrest] at h
          cases h
          obtain ⟨key, hkey, rfl⟩ := read_key_eq_ok_iff.1 hfirst
          obtain ⟨keys, hkeys, rfl⟩ := ih.1 hrest
          exact ⟨key :: keys, .cons hkey hkeys, rfl⟩
    · rintro ⟨keys, hkeys, rfl⟩
      obtain _ | ⟨hkey, hkeys⟩ := hkeys
      rw [read_key_eq_ok_iff.2 ⟨_, hkey, rfl⟩, ih.2 ⟨_, hkeys, rfl⟩]
      rfl

/-- The first text that names no key is refused. -/
private theorem mapM_read_key_of_refused (hbefore : ∀ t ∈ before, ∃ key, NamesKey t key)
    (h : ∀ key, ¬NamesKey text key) :
    (before ++ text :: rest).mapM Kind.key.read = .error (.notKey text) := by
  -- Induction on the texts before the refused one, all of which are read.
  induction before with
  | nil =>
    rw [List.nil_append, List.mapM_cons, read_key_of_not_namesKey h]
    rfl
  | cons first before ih =>
    obtain ⟨⟨key, hkey⟩, hbefore⟩ := List.forall_mem_cons.1 hbefore
    rw [List.cons_append, List.mapM_cons, read_key_eq_ok_iff.2 ⟨key, hkey, rfl⟩, ih hbefore]
    rfl

/-- The option for the keys that are held. -/
def keysOption : Parameter :=
  { names := ["--keys"], label := "keys", arity := .many, kind := .key }

/-- The grammar of a run has the option for keys. -/
private theorem find?_keys : runGrammar.find? "--keys" = some keysOption := by
  decide +kernel

/-- The reading behind the option with these keys. -/
def withKeys (r : Grammar.Reading) (keys : List Nibble) : Grammar.Reading :=
  { r with found := r.found ++ [("keys", keys.map Value.key)] }

/-- The keys of the option are those that were read last. -/
private theorem keys_withKeys (r : Grammar.Reading) (keys : List Nibble) :
    (withKeys r keys).keys "keys" = keys := by
  have hlast : (withKeys r keys).last? "keys" = some (keys.map Value.key) := by
    rw [withKeys, Grammar.Reading.last?, List.reverse_append, List.reverse_singleton,
      List.singleton_append, List.find?_cons_of_pos (by simp)]
    rfl
  rw [Grammar.Reading.keys, hlast, Option.getD_some, List.filterMap_map]
  exact List.filterMap_some

/-- Texts that are read are found under the option, behind what was found before. -/
private theorem take_keysOption_of_ok {values : List Value}
    (h : (texts.erase separator).mapM Kind.key.read = .ok values) (r : Grammar.Reading) :
    Grammar.take r keysOption texts = .ok { r with found := r.found ++ [("keys", values)] } := by
  change (((texts.erase separator).mapM Kind.key.read).mapError
    (UsageError.argument "--keys") >>= _) = _
  rw [h]
  rfl

/-- A text that is refused is refused under the name of the option. -/
private theorem take_keysOption_of_error {problem : Problem}
    (h : (texts.erase separator).mapM Kind.key.read = .error problem) (r : Grammar.Reading) :
    Grammar.take r keysOption texts = .error (.argument "--keys" problem) := by
  change (((texts.erase separator).mapM Kind.key.read).mapError
    (UsageError.argument "--keys") >>= _) = _
  rw [h]
  rfl

/-- The option takes exactly the texts that name keys. -/
theorem take_keysOption_eq_ok_iff {r after : Grammar.Reading} :
    Grammar.take r keysOption texts = .ok after ↔
      ∃ keys, List.Forall₂ NamesKey (texts.erase separator) keys ∧ after = withKeys r keys := by
  constructor
  · intro h
    cases hread : (texts.erase separator).mapM Kind.key.read with
    | error problem => cases (take_keysOption_of_error hread r).symm.trans h
    | ok values =>
      cases (take_keysOption_of_ok hread r).symm.trans h
      obtain ⟨keys, hkeys, rfl⟩ := mapM_read_key_eq_ok_iff.1 hread
      exact ⟨keys, hkeys, rfl⟩
  · rintro ⟨keys, hkeys, rfl⟩
    exact take_keysOption_of_ok (mapM_read_key_eq_ok_iff.2 ⟨keys, hkeys, rfl⟩) r

/-- The keys of a list are those that its texts name. -/
private theorem mem_iff_of_forall₂ {keys : List Nibble} (h : List.Forall₂ NamesKey texts keys) :
    key ∈ keys ↔ ∃ text ∈ texts, NamesKey text key := by
  -- Both lists are built up together, one text and its key at a time.
  induction h with
  | nil => simp
  | @cons text first _ _ hfirst _ ih =>
    have hsame : key = first ↔ NamesKey text key :=
      ⟨fun heq => heq ▸ hfirst, fun hkey => hkey.unique hfirst⟩
    rw [List.mem_cons, List.exists_mem_cons_iff, ih, hsame]

/-- The texts that the option for held keys takes are those that name a key, each as the key that it
    names. So a text is taken as a digit, and only as a digit, exactly if it has no other way to
    name a key. A text that names none is refused in the words for an invalid key. When a list of
    texts is taken, the keys that are held are those that its texts name; else its first text that
    names no key is refused. -/
theorem keys_named (text : String) (r : Grammar.Reading) (texts : List String) :
    runGrammar.find? "--keys" = some keysOption ∧
    (∀ key, keysOption.kind.read text = .ok (.key key) ↔ NamesKey text key) ∧
    ((∀ key, keysOption.kind.read text = .ok (.key key) ↔ IsKeyDigit text key) ↔
      ∀ key, NamesKey text key → IsKeyDigit text key) ∧
    ((∀ key, ¬NamesKey text key) →
      keysOption.kind.read text = .error (.notKey text) ∧
      (Problem.notKey text).message = "invalid key '" ++ text ++ "', expected a hex digit 0-F") ∧
    (∀ after, Grammar.take r keysOption texts = .ok after →
      List.Forall₂ NamesKey (texts.erase separator) (after.keys "keys") ∧
      ∀ key, (KeyStates.holding (after.keys "keys")).get key = true ↔
        ∃ named ∈ texts.erase separator, NamesKey named key) ∧
    ∀ before refused rest, texts.erase separator = before ++ refused :: rest →
      (∀ named ∈ before, ∃ key, NamesKey named key) → (∀ key, ¬NamesKey refused key) →
      Grammar.take r keysOption texts = .error (.argument "--keys" (.notKey refused)) := by
  have hread (key : Nibble) : keysOption.kind.read text = .ok (.key key) ↔ NamesKey text key := by
    refine read_key_eq_ok_iff.trans ⟨?_, fun hkey => ⟨key, hkey, rfl⟩⟩
    rintro ⟨other, hother, heq⟩
    cases heq
    exact hother
  -- A digit is one of the names of its key, so that only the other direction has content.
  refine ⟨find?_keys, hread, ⟨fun h key hkey => ?_, fun h key => ?_⟩, fun h => ⟨?_, rfl⟩,
    fun after hafter => ?_, fun before refused rest hcut hbefore h => ?_⟩
  · exact (h key).1 ((hread key).2 hkey)
  · exact (hread key).trans ⟨h key, IsKeyDigit.namesKey⟩
  · exact read_key_of_not_namesKey h
  -- What was taken last under the option are the keys, and they are the ones that are held.
  · obtain ⟨keys, hkeys, rfl⟩ := take_keysOption_eq_ok_iff.1 hafter
    rw [keys_withKeys]
    exact ⟨hkeys, fun key => (KeyStates.get_holding keys key).trans (mem_iff_of_forall₂ hkeys)⟩
  · exact take_keysOption_of_error (hcut ▸ mapM_read_key_of_refused hbefore h) r

/-- A blank, the mark with an underscore and a zero, a plus sign and a digit of another script: all
    that names a key. `10` names none, and it is refused although the texts before it are keys. -/
theorem keys_named_spellings :
    ∃ after, Grammar.take {} keysOption [" 0x_0F", "+3", "٣"] = .ok after ∧
      after.keys "keys" = [0xF, 3, 3] ∧
      (∀ key, (KeyStates.holding [0xF, 3, 3]).get key = true ↔
        ∃ text ∈ [" 0x_0F", "+3", "٣"], NamesKey text key) ∧
      keysOption.kind.read "10" = .error (.notKey "10") ∧
      Grammar.take {} keysOption ["a", "10"] = .error (.argument "--keys" (.notKey "10")) := by
  obtain ⟨-, hread, -, hrefused, -, hlist⟩ := keys_named "10" {} ["a", "10"]
  have hnames {text : String} {key : Nibble}
      (h : (keysOption.kind.read text).toOption = some (.key key)) : NamesKey text key :=
    ((keys_named text {} []).2.1 key).1 (eq_ok_of_toOption h)
  have hten : ∀ key, ¬NamesKey "10" key := fun key hkey => by
    have hnone : (keysOption.kind.read "10").toOption = none := by decide +kernel
    rw [(hread key).2 hkey] at hnone
    cases hnone
  have hall : List.Forall₂ NamesKey [" 0x_0F", "+3", "٣"] [0xF, 3, 3] :=
    .cons (hnames (by decide +kernel)) (.cons (hnames (by decide +kernel))
      (.cons (hnames (by decide +kernel)) .nil))
  have htake : Grammar.take {} keysOption [" 0x_0F", "+3", "٣"] = .ok (withKeys {} [0xF, 3, 3]) :=
    take_keysOption_eq_ok_iff.2 ⟨_, hall, rfl⟩
  obtain ⟨-, -, -, -, htaken, -⟩ := keys_named "" {} [" 0x_0F", "+3", "٣"]
  obtain ⟨-, hheld⟩ := htaken _ htake
  rw [keys_withKeys] at hheld
  refine ⟨_, htake, keys_withKeys _ _, hheld, (hrefused hten).1, ?_⟩
  refine hlist ["a"] "10" [] (by decide +kernel) (fun t ht => ?_) hten
  obtain rfl := List.mem_singleton.1 ht
  exact ⟨0xA, hnames (by decide +kernel)⟩

/-- A plus sign and a digit are two characters, and name a key all the same. -/
theorem read_key_signed :
    keysOption.kind.read "+3" = .ok (.key 3) ∧ ∀ key, ¬IsKeyDigit "+3" key := by
  refine ⟨eq_ok_of_toOption (by decide +kernel), ?_⟩
  rintro key ⟨c, h, -⟩
  have hlength := congrArg String.length h
  rw [String.length_singleton] at hlength
  exact absurd hlength (by decide +kernel)

end Chip8.CommandLine
