import Mathlib.Data.List.Forall2
import MoshClient.Library.ShellWords

namespace MoshModel

abbrev Text := List Char

def probe : Text :=
  "sh -c '[ -n \"$SSH_CONNECTION\" ] && printf \"\\nMOSH SSH_CONNECTION %s\\n\" \"$SSH_CONNECTION\"'".toList

def shellQuote (arg : Text) : Text :=
  "'".toList ++ arg.flatMap (fun c => if c = '\x27' then "'\\''".toList else [c]) ++ "'".toList

def moshServerCommandInner (locale : Text) (payload : Option (List Text)) (port : Option UInt16) : Text :=
  let quoted := ["new".toList, "-c".toList, "256".toList, "-s".toList, "-l".toList, "LANG=".toList ++ locale]
  let quoted := match port with
    | some port => quoted ++ ["-p".toList, (toString port.toNat).toList]
    | none => quoted
  let quoted := match payload with
    | some payload => quoted ++ ["--".toList] ++ payload
    | none => quoted
  let quoted := " ".toList.intercalate (quoted.map shellQuote)
  probe ++ " ; mosh-server ".toList ++ quoted

def moshServerCommand (locale : Text) (payload : Option (List Text)) (port : Option UInt16) : Text :=
  moshServerCommandInner locale payload port

open ShellWords

theorem shellQuote_encloses (arg : Text) :
    Encloses (arg.flatMap fun c => if c = '\x27' then "'\\''".toList else [c]) arg := by
  induction arg with
  | nil => exact .nil
  | cons c arg ih =>
    rw [List.flatMap_cons]
    split
    · next quote =>
      subst quote
      exact Encloses.quote.append ih
    · next other => exact (Encloses.char other).append ih

theorem shellQuote_spells (arg : Text) : Spells (shellQuote arg) arg := (shellQuote_encloses arg).spells

theorem moshServer_spells : Spells "mosh-server".toList "mosh-server".toList :=
  .ordinary (by decide) (List.all_eq_true.mp (by decide))

theorem map_shellQuote_spell (args : List Text) : List.Forall₂ Spells (args.map shellQuote) args := by
  apply List.forall₂_map_left_iff.mpr
  exact List.forall₂_same.mpr fun arg _ => shellQuote_spells arg

theorem moshServer_words (args : List Text) :
    words ("mosh-server ".toList ++ " ".toList.intercalate (args.map shellQuote)) = some ("mosh-server".toList :: args) := by
  have program := moshServer_spells.words_cons (" ".toList.intercalate (args.map shellQuote))
  have joined := words_join (map_shellQuote_spell args)
  rw [show "mosh-server ".toList = "mosh-server".toList ++ [' '] from rfl, List.append_assoc, List.singleton_append,
    program]
  exact congrArg _ joined

/-- What the shell on the other side runs: `mosh-server` on the arguments as they were given. -/
theorem moshServerCommand_words (locale : Text) (payload : Option (List Text)) (port : Option UInt16) :
    ∃ line, moshServerCommand locale payload port = probe ++ " ; ".toList ++ line ∧
      words line = some (["mosh-server".toList, "new".toList, "-c".toList, "256".toList, "-s".toList, "-l".toList,
        "LANG=".toList ++ locale] ++
        (port.elim [] fun port => ["-p".toList, (toString port.toNat).toList]) ++
        payload.elim [] fun payload => "--".toList :: payload) := by
  have separator : " ; mosh-server ".toList = " ; ".toList ++ "mosh-server ".toList := rfl
  simp only [moshServerCommand, moshServerCommandInner, separator, List.append_assoc]
  cases port with
  | none =>
    cases payload with
    | none => exact ⟨_, rfl, moshServer_words _⟩
    | some payload => exact ⟨_, rfl, moshServer_words _⟩
  | some port =>
    cases payload with
    | none => exact ⟨_, rfl, moshServer_words _⟩
    | some payload => exact ⟨_, rfl, moshServer_words _⟩

end MoshModel
