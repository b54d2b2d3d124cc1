import Dominion.Framework.Ecma
import Dominion.Solver.Decimal
import Mathlib.Data.List.Infix

/-! # Texts of targets

A target is printed to a text that parses to it again, and the two parsers, of Go and of
JavaScript, read the same texts but for their notions of white space and of a number. -/
namespace Dominion.Solver

open Dominion.Framework
open Dominion.Deploy.Domain (Err isDigit isLowerLetter)

/-! ## Printed targets -/

/-- `PortSelector.String`. -/
def PortSelector.toText (p : PortSelector) : String :=
  if p.isNumeric then p.numeric.repr else p.name

/-- The raw target of `NewManager`. -/
def Target.targetRaw (t : Target) : String :=
  t.app ++ "/" ++ t.service ++ ":" ++ t.portSelector.toText

/-! ## JavaScript's parser -/

namespace Js

/-- A target with a numeric port. -/
structure Target where
  app : String
  service : String
  port : Nat
  deriving DecidableEq

inductive InvalidTargetError where
  | format
  | scheme
  | portRequired
  | portNumeric
  | portNumericGot (port : String)
  | portRange
  deriving DecidableEq

/-- The message, with the texts as JSON strings. -/
def InvalidTargetError.message (stringify : String → String) (raw : String) :
    InvalidTargetError → String
  | format => "invalid target " ++ stringify raw ++ ": want app/service:port"
  | scheme => "invalid target " ++ stringify raw ++
      ": want app/service:port or dominion:///app/service:port"
  | portRequired => "invalid target " ++ stringify raw ++ ": port is required"
  | portNumeric => "invalid target " ++ stringify raw ++ ": port must be numeric"
  | portNumericGot port => "invalid target " ++ stringify raw ++ ": port must be numeric, got " ++
      stringify port
  | portRange => "invalid target " ++ stringify raw ++ ": port out of range"

/-- `^\d+$`, and the number that `parseInt` reads. -/
def parsePort (trimmedPortPart : String) : Except InvalidTargetError Nat :=
  match digitsValue trimmedPortPart.toList with
  | none => .error (.portNumericGot trimmedPortPart)
  | some numericPort => if maxPort < numericPort then .error .portRange else .ok numericPort

/-- The target without its scheme. -/
def parsePath (trimmed : String) : Except InvalidTargetError Target :=
  let pathPart := ((cutChar trimmed ':').map Prod.fst).getD trimmed
  let trimmedPortPart := Ecma.trim (((cutChar trimmed ':').map Prod.snd).getD "")
  match cutChar pathPart '/' with
  | none => .error .format
  | some (app,service) =>
    let appPart := Ecma.trim app
    let servicePart := Ecma.trim service
    if appPart = "" ∨ servicePart = "" ∨ '/' ∈ servicePart.toList then .error .format
    else if trimmedPortPart = "" then
      if (cutChar trimmed ':').isSome then .error .portNumeric else .error .portRequired
    else
      match parsePort trimmedPortPart with
      | .error e => .error e
      | .ok numericPort => .ok ⟨appPart,servicePart,numericPort⟩

def parseTarget (raw : String) : Except InvalidTargetError Target :=
  let trimmed := Ecma.trim raw
  if trimmed = "" then .error .format
  else if dominionSchemePrefix.toList.isPrefixOf trimmed.toList then
    parsePath (String.ofList (trimmed.toList.drop dominionSchemePrefix.toList.length))
  else if containsText trimmed.toList "://".toList then .error .scheme
  else parsePath trimmed

end Js

/-! ## What both parsers do -/

section reading

variable {ρ : Type} {raw : String}

/-- The text without its scheme; another scheme is refused. -/
def schemeless (trimmed : String) : Option String :=
  if dominionSchemePrefix.toList.isPrefixOf trimmed.toList then
    some (String.ofList (trimmed.toList.drop dominionSchemePrefix.toList.length))
  else if containsText trimmed.toList "://".toList then none
  else some trimmed

def pathPart (body : String) : String :=
  ((cutChar body ':').map Prod.fst).getD body

def portPart (body : String) : String :=
  ((cutChar body ':').map Prod.snd).getD ""

/-- The segments that are read, under a notion of white space and a grammar of ports. -/
def readPath (trim : String → String) (readPort : String → Option ρ) (body : String) :
    Option (String × String × ρ) :=
  (cutChar (pathPart body) '/').bind fun names =>
    if trim names.1 = "" ∨ trim names.2 = "" ∨ '/' ∈ (trim names.2).toList then none
    else if trim (portPart body) = "" then none
    else (readPort (trim (portPart body))).map fun port => (trim names.1,trim names.2,port)

def readTarget (trim : String → String) (readPort : String → Option ρ) (raw : String) :
    Option (String × String × ρ) :=
  (schemeless (trim raw)).bind (readPath trim readPort)

/-- The selector that a port is read as. -/
def readSelector (portPart : String) : Option PortSelector :=
  match atoi portPart with
  | some parsedPort =>
    if parsedPort < 0 ∨ maxPort < parsedPort then none else some (.numericPort parsedPort)
  | none => if dnsLabelPattern portPart then some (.namedPort portPart) else none

/-- The number that a port is read as. -/
def readNumber (portPart : String) : Option Nat :=
  (digitsValue portPart.toList).filter fun n => decide (¬maxPort < n)

private theorem parsePort_eq_ok {port : String} {p : PortSelector} :
    parsePort raw port = .ok p ↔ readSelector port = some p := by
  unfold parsePort readSelector
  cases atoi port with
  | none =>
    dsimp only
    split <;> simp
  | some n =>
    dsimp only
    split <;> simp

private theorem parsePath_eq_ok {body : String} {t : Target} : parsePath raw body = .ok t ↔
    readPath Text.trimSpace readSelector body = some (t.app,t.service,t.portSelector) := by
  unfold parsePath readPath pathPart portPart
  dsimp only
  cases cutChar (((cutChar body ':').map Prod.fst).getD body) '/' with
  | none => simp
  | some names =>
    rw [Option.bind_some]
    dsimp only
    split
    · simp
    · split
      · split <;> simp
      · cases hport : parsePort raw
          (Text.trimSpace (((cutChar body ':').map Prod.snd).getD "")) with
        | error e =>
          have hnone : readSelector
              (Text.trimSpace (((cutChar body ':').map Prod.snd).getD "")) = none := by
            rw [Option.eq_none_iff_forall_ne_some]
            intro p hp
            rw [parsePort_eq_ok.mpr hp] at hport
            cases hport
          simp [hnone]
        | ok p =>
          rw [parsePort_eq_ok.mp hport]
          cases t
          simp

private theorem schemeless_empty : schemeless "" = some "" := by
  decide

private theorem readPath_empty (trim : String → String) (readPort : String → Option ρ) :
    readPath trim readPort "" = none :=
  rfl

/-- Go's parser reads with `strings.TrimSpace` and both kinds of ports. -/
theorem parseTarget_eq_ok {t : Target} : parseTarget raw = .ok t ↔
    readTarget Text.trimSpace readSelector raw = some (t.app,t.service,t.portSelector) := by
  unfold parseTarget readTarget
  dsimp only
  by_cases hempty : Text.trimSpace raw = ""
  · rw [if_pos hempty,hempty,schemeless_empty,Option.bind_some,readPath_empty]
    simp
  · rw [if_neg hempty,schemeless]
    by_cases hscheme : dominionSchemePrefix.toList.isPrefixOf (Text.trimSpace raw).toList = true
    · rw [if_pos hscheme,if_pos hscheme,Option.bind_some]
      exact parsePath_eq_ok
    · rw [if_neg hscheme,if_neg hscheme]
      by_cases hother : containsText (Text.trimSpace raw).toList "://".toList = true
      · rw [if_pos hother,if_pos hother]
        simp
      · rw [if_neg hother,if_neg hother,Option.bind_some]
        exact parsePath_eq_ok

namespace Js

private theorem parsePort_eq_ok {port : String} {n : Nat} :
    parsePort port = .ok n ↔ readNumber port = some n := by
  unfold parsePort readNumber
  cases digitsValue port.toList with
  | none => simp
  | some m =>
    dsimp only
    by_cases hrange : maxPort < m
    · rw [if_pos hrange,Option.filter_some,if_neg (by simpa using hrange)]
      simp
    · rw [if_neg hrange,Option.filter_some,if_pos (by simpa using hrange)]
      simp

private theorem parsePath_eq_ok {body : String} {t : Target} : parsePath body = .ok t ↔
    readPath Ecma.trim readNumber body = some (t.app,t.service,t.port) := by
  unfold parsePath readPath pathPart portPart
  dsimp only
  cases cutChar (((cutChar body ':').map Prod.fst).getD body) '/' with
  | none => simp
  | some names =>
    rw [Option.bind_some]
    dsimp only
    split
    · simp
    · split
      · split <;> simp
      · cases hport : parsePort (Ecma.trim (((cutChar body ':').map Prod.snd).getD "")) with
        | error e =>
          have hnone : readNumber
              (Ecma.trim (((cutChar body ':').map Prod.snd).getD "")) = none := by
            rw [Option.eq_none_iff_forall_ne_some]
            intro n hn
            rw [parsePort_eq_ok.mpr hn] at hport
            cases hport
          simp [hnone]
        | ok n =>
          rw [parsePort_eq_ok.mp hport]
          cases t
          simp

/-- JavaScript's parser reads with `String.prototype.trim` and numbers. -/
theorem parseTarget_eq_ok {t : Target} : parseTarget raw = .ok t ↔
    readTarget Ecma.trim readNumber raw = some (t.app,t.service,t.port) := by
  unfold parseTarget readTarget
  dsimp only
  by_cases hempty : Ecma.trim raw = ""
  · rw [if_pos hempty,hempty,schemeless_empty,Option.bind_some,readPath_empty]
    simp
  · rw [if_neg hempty,schemeless]
    by_cases hscheme : dominionSchemePrefix.toList.isPrefixOf (Ecma.trim raw).toList = true
    · rw [if_pos hscheme,if_pos hscheme,Option.bind_some]
      exact parsePath_eq_ok
    · rw [if_neg hscheme,if_neg hscheme]
      by_cases hother : containsText (Ecma.trim raw).toList "://".toList = true
      · rw [if_pos hother,if_pos hother]
        simp
      · rw [if_neg hother,if_neg hother,Option.bind_some]
        exact parsePath_eq_ok

end Js

end reading

/-! ## Trimmed texts -/

section trimming

variable {p : Char → Bool} {cs ds : List Char}

/-- No white space at either end. -/
def Tidy (p : Char → Bool) (cs : List Char) : Prop :=
  (∀ c ∈ cs.head?, p c = false) ∧ ∀ c ∈ cs.getLast?, p c = false

private theorem Tidy.trim_eq (h : Tidy p cs) : (cs.dropWhile p).rdropWhile p = cs := by
  have hfront : cs.dropWhile p = cs := by
    cases cs with
    | nil => rfl
    | cons c cs => exact List.dropWhile_cons_of_neg (by simp [h.1 c rfl])
  rw [hfront]
  apply List.rdropWhile_eq_self_iff.mpr
  intro hne
  simp [h.2 (cs.getLast hne) (List.getLast?_eq_some_getLast hne)]

/-- Trimming leaves no white space at the ends. -/
theorem tidy_trim (p : Char → Bool) (cs : List Char) :
    Tidy p ((cs.dropWhile p).rdropWhile p) := by
  constructor
  · intro c hc
    obtain ⟨rest,hrest⟩ := List.rdropWhile_prefix p (cs.dropWhile p)
    have hhead : (cs.dropWhile p).head? = some c := by
      rw [← hrest,List.head?_append,hc]
      rfl
    have hnot := List.head?_dropWhile_not p cs
    rw [hhead] at hnot
    simpa using hnot
  · intro c hc
    have hne : (cs.dropWhile p).rdropWhile p ≠ [] := fun hnil => by simp [hnil] at hc
    have hlast := List.rdropWhile_last_not p (cs.dropWhile p) hne
    rw [Option.mem_def,List.getLast?_eq_some_getLast hne] at hc
    simpa [Option.some.inj hc] using hlast

/-- Only the ends of a text are trimmed. -/
theorem Tidy.append {front : List Char} (hfront : Tidy p front) (hf : front ≠ []) (hcs : Tidy p cs)
    (hc : cs ≠ []) (middle : List Char) : Tidy p (front ++ middle ++ cs) := by
  constructor
  · intro c h
    rw [List.append_assoc,List.head?_append_of_ne_nil _ hf] at h
    exact hfront.1 c h
  · intro c h
    rw [List.getLast?_append_of_ne_nil _ hc] at h
    exact hcs.2 c h

private theorem mem_of_trim {c : Char} (h : c ∈ (cs.dropWhile p).rdropWhile p) : c ∈ cs :=
  (List.dropWhile_sublist p).subset ((List.rdropWhile_prefix p _).subset h)

end trimming

/-! ## Printed targets parse -/

section printing

variable {raw : String} {t : Target} {app service : String} {port : List Char}

/-- Names that a target was read with. -/
structure Readable (app service : String) : Prop where
  app_ne : app.toList ≠ []
  service_ne : service.toList ≠ []
  app_tidy : Tidy Text.isSpace app.toList
  service_tidy : Tidy Text.isSpace service.toList
  app_plain : ':' ∉ app.toList ∧ '/' ∉ app.toList
  service_plain : ':' ∉ service.toList ∧ '/' ∉ service.toList

/-- A text of a port that is read as it stands. -/
structure PortText (port : List Char) : Prop where
  nonempty : port ≠ []
  tidy : Tidy Text.isSpace port
  slash : port.head? ≠ some '/'
  colon : ':' ∉ port

def printed (app service : String) (port : List Char) : List Char :=
  app.toList ++ '/' :: service.toList ++ ':' :: port

theorem cutChar_append {sep : Char} {cs : List Char} (h : sep ∉ cs) (ds : List Char) :
    cutChar (String.ofList (cs ++ sep :: ds)) sep = some (String.ofList cs,String.ofList ds) := by
  rw [cutChar,String.toList_ofList,if_pos (by simp),takeWhile_ne_append h,dropWhile_ne_append h]
  rfl

private theorem pathPart_colon (body : String) : ':' ∉ (pathPart body).toList := by
  unfold pathPart cutChar
  split
  · rw [Option.map_some,Option.getD_some,String.toList_ofList]
    intro h
    simpa using List.mem_takeWhile_imp h
  · assumption

/-- What is read has been cut out between the separators. -/
theorem readable_of_read {ρ : Type} {readPort : String → Option ρ} {body : String} {r : ρ}
    (h : readPath Text.trimSpace readPort body = some (app,service,r)) : Readable app service := by
  unfold readPath at h
  obtain ⟨names,hcut,hread⟩ := Option.bind_eq_some_iff.mp h
  have hcolon := pathPart_colon body
  have hnames : (∀ c ∈ names.1.toList, c ∈ (pathPart body).toList) ∧ '/' ∉ names.1.toList ∧
      ∀ c ∈ names.2.toList, c ∈ (pathPart body).toList := by
    unfold cutChar at hcut
    split at hcut
    · cases hcut
      simp only [String.toList_ofList]
      refine ⟨fun c hc => (List.takeWhile_sublist _).subset hc,fun hc => ?_,fun c hc => ?_⟩
      · simpa using List.mem_takeWhile_imp hc
      · exact (List.dropWhile_sublist _).subset (List.mem_of_mem_tail hc)
    · cases hcut
  split at hread
  · cases hread
  · rename_i hparts
    split at hread
    · cases hread
    · obtain ⟨_,-,htriple⟩ := Option.map_eq_some_iff.mp hread
      simp only [Prod.mk.injEq] at htriple
      obtain ⟨rfl,rfl,-⟩ := htriple
      simp only [not_or] at hparts
      have hmem : ∀ {s : String} {c : Char}, c ∈ (Text.trimSpace s).toList → c ∈ s.toList := by
        intro s c hc
        rw [Text.trimSpace,String.toList_ofList] at hc
        exact mem_of_trim hc
      have htidy : ∀ s, Tidy Text.isSpace (Text.trimSpace s).toList := by
        intro s
        rw [Text.trimSpace,String.toList_ofList]
        exact tidy_trim _ _
      exact ⟨by simpa using hparts.1,by simpa using hparts.2.1,htidy _,htidy _,
        ⟨fun hc => hcolon (hnames.1 _ (hmem hc)),fun hc => hnames.2.1 (hmem hc)⟩,
        ⟨fun hc => hcolon (hnames.2.2 _ (hmem hc)),hparts.2.2⟩⟩

private theorem trimSpace_tidy {cs : List Char} (h : Tidy Text.isSpace cs) :
    Text.trimSpace (String.ofList cs) = String.ofList cs := by
  rw [Text.trimSpace,String.toList_ofList,h.trim_eq]

private theorem trimSpace_readable (s : String) (h : Tidy Text.isSpace s.toList) :
    Text.trimSpace s = s := by
  rw [Text.trimSpace,h.trim_eq,String.ofList_toList]

private theorem readPath_printed {ρ : Type} {readPort : String → Option ρ} {r : ρ}
    (h : Readable app service) (hport : PortText port)
    (hread : readPort (String.ofList port) = some r) :
    readPath Text.trimSpace readPort (String.ofList (printed app service port)) =
      some (app,service,r) := by
  have hcolon : ':' ∉ app.toList ++ '/' :: service.toList := by
    simp [h.app_plain.1,h.service_plain.1]
  have hcut := cutChar_append hcolon port
  have hpath : pathPart (String.ofList (printed app service port)) =
      String.ofList (app.toList ++ '/' :: service.toList) := by
    rw [pathPart,printed,hcut]
    rfl
  have hportPart : portPart (String.ofList (printed app service port)) = String.ofList port := by
    rw [portPart,printed,hcut]
    rfl
  have hnames := cutChar_append h.app_plain.2 service.toList
  simp only [String.ofList_toList] at hnames
  rw [readPath,hpath,hportPart,hnames,Option.bind_some]
  dsimp only
  rw [trimSpace_readable app h.app_tidy,trimSpace_readable service h.service_tidy,
    trimSpace_tidy hport.tidy,if_neg,if_neg,hread]
  · rfl
  · simpa using hport.nonempty
  · simp only [not_or]
    exact ⟨by simpa using h.app_ne,by simpa using h.service_ne,h.service_plain.2⟩

private theorem append_colon_inj {xs ys xs' ys' : List Char} (hxs : ':' ∉ xs) (hxs' : ':' ∉ xs')
    (h : xs ++ ':' :: ys = xs' ++ ':' :: ys') : xs = xs' ∧ ys = ys' := by
  have hsame : xs = xs' := by
    calc xs = (xs ++ ':' :: ys).takeWhile (· ≠ ':') := (takeWhile_ne_append hxs).symm
      _ = (xs' ++ ':' :: ys').takeWhile (· ≠ ':') := by rw [h]
      _ = xs' := takeWhile_ne_append hxs'
  rw [hsame] at h
  exact ⟨hsame,(List.cons.inj (List.append_cancel_left h)).2⟩

private theorem count_around (c : Char) (xs ys : List Char) :
    (xs ++ c :: ys).count c = xs.count c + (ys.count c + 1) := by
  rw [List.count_append,List.count_cons_self]

private theorem front_colon (h : Readable app service) :
    ':' ∉ app.toList ++ '/' :: service.toList := by
  simp [h.app_plain.1,h.service_plain.1]

/-- The only colon of a printed target is before its port. -/
theorem schemeless_printed (h : Readable app service) (hport : PortText port) :
    schemeless (String.ofList (printed app service port)) =
      some (String.ofList (printed app service port)) := by
  have hfront := front_colon h
  have hscheme : ¬dominionSchemePrefix.toList.isPrefixOf
      (String.ofList (printed app service port)).toList = true := by
    intro hinitial
    obtain ⟨rest,hrest⟩ := List.isPrefixOf_iff_prefix.mp hinitial
    rw [String.toList_ofList] at hrest
    have hcut : "dominion".toList ++ ':' :: ("///".toList ++ rest) =
        (app.toList ++ '/' :: service.toList) ++ ':' :: port := hrest
    have hname := (append_colon_inj (by decide) hfront hcut).1
    have hslash : '/' ∈ "dominion".toList := by
      rw [hname]
      simp
    exact absurd hslash (by decide)
  have hother : ¬containsText (String.ofList (printed app service port)).toList
      "://".toList = true := by
    intro hcontains
    obtain ⟨tail,htail,hinitial⟩ := List.any_eq_true.mp hcontains
    obtain ⟨front,hsplit⟩ := (List.mem_tails _ _).mp htail
    obtain ⟨rest,rfl⟩ := List.isPrefixOf_iff_prefix.mp hinitial
    have hcut : front ++ ':' :: ("//".toList ++ rest) =
        (app.toList ++ '/' :: service.toList) ++ ':' :: port := hsplit.trans String.toList_ofList
    have hcount := congrArg (List.count ':') hcut
    have hnone := List.count_eq_zero.mpr hfront
    have hnone' := List.count_eq_zero.mpr hport.colon
    rw [count_around,count_around,hnone,hnone'] at hcount
    have hzero : List.count ':' front = 0 := by omega
    have hsame := (append_colon_inj (List.count_eq_zero.mp hzero) hfront hcut).2
    apply hport.slash
    rw [← hsame]
    rfl
  rw [schemeless,if_neg hscheme,if_neg hother]

private theorem tidy_printed (h : Readable app service) (hport : PortText port) :
    Tidy Text.isSpace (printed app service port) := by
  have htidy := h.app_tidy.append h.app_ne hport.tidy hport.nonempty
    ('/' :: service.toList ++ [':'])
  simpa [printed] using htidy

private theorem tidy_dominionSchemePrefix : Tidy Text.isSpace dominionSchemePrefix.toList := by
  constructor
  · intro c hc
    have hd : c = 'd' := (Option.some.inj hc).symm
    rw [hd]
    decide
  · intro c hc
    have hslash : c = '/' := (Option.some.inj hc).symm
    rw [hslash]
    decide

private theorem schemeless_dominionScheme (body : String) :
    schemeless (dominionSchemePrefix ++ body) = some body := by
  have hinitial : dominionSchemePrefix.toList.isPrefixOf (dominionSchemePrefix ++ body).toList :=
    List.isPrefixOf_iff_prefix.mpr (String.toList_append ▸ List.prefix_append _ _)
  unfold schemeless
  rw [if_pos hinitial,String.toList_append,List.drop_left,String.ofList_toList]

private theorem tidy_scheme {scheme : String} {cs : List Char}
    (hscheme : Tidy Text.isSpace scheme.toList)
    (hne : scheme.toList ≠ []) (hcs : Tidy Text.isSpace cs) (hc : cs ≠ []) :
    Tidy Text.isSpace (scheme ++ String.ofList cs).toList := by
  have htidy := hscheme.append hne hcs hc []
  rw [List.append_nil] at htidy
  rw [String.toList_append,String.toList_ofList]
  exact htidy

/-- A printed target is read back, with its scheme and without. -/
theorem readTarget_printed {ρ : Type} {readPort : String → Option ρ} {r : ρ}
    (h : Readable app service) (hport : PortText port)
    (hread : readPort (String.ofList port) = some r) :
    readTarget Text.trimSpace readPort (String.ofList (printed app service port)) =
        some (app,service,r) ∧
      readTarget Text.trimSpace readPort
        (dominionSchemePrefix ++ String.ofList (printed app service port)) =
          some (app,service,r) := by
  have hpath := readPath_printed h hport hread
  have htidy := tidy_printed h hport
  constructor
  · unfold readTarget
    rw [trimSpace_tidy htidy,schemeless_printed h hport,Option.bind_some]
    exact hpath
  · have hwhole := tidy_scheme tidy_dominionSchemePrefix (by decide) htidy (by simp [printed])
    unfold readTarget
    rw [trimSpace_readable _ hwhole,schemeless_dominionScheme,Option.bind_some]
    exact hpath

/-! ## Ports -/

/-- The characters of numbers and of names of ports. -/
def portChar (c : Char) : Bool :=
  isLowerLetter c || isDigit c || c == '-'

private theorem portChar_cases {c : Char} (h : portChar c = true) :
    c.toNat = 45 ∨ 48 ≤ c.toNat ∧ c.toNat ≤ 57 ∨ 97 ≤ c.toNat ∧ c.toNat ≤ 122 := by
  simp only [portChar,isLowerLetter,isDigit,Bool.or_eq_true,Bool.and_eq_true,decide_eq_true_eq,
    beq_iff_eq] at h
  rcases h with (h | h) | h
  · exact .inr (.inr h)
  · exact .inr (.inl h)
  · rw [h]
    exact .inl rfl

private theorem isSpace_of_portChar {c : Char} (h : portChar c = true) :
    Text.isSpace c = false := by
  have hcases := portChar_cases h
  simp only [Text.isSpace,List.mem_cons,List.not_mem_nil,or_false,Bool.or_eq_false_iff,
    Bool.and_eq_false_iff,decide_eq_false_iff_not]
  omega

private theorem portText_of_forall {cs : List Char} (hne : cs ≠ [])
    (h : ∀ c ∈ cs, portChar c = true) :
    PortText cs where
  nonempty := hne
  tidy := by
    constructor
    · intro c hc
      exact isSpace_of_portChar (h c (List.mem_of_head? hc))
    · intro c hc
      exact isSpace_of_portChar (h c (List.mem_of_getLast? hc))
  slash := by
    intro hc
    exact absurd (h '/' (List.mem_of_head? hc)) (by decide)
  colon := by
    intro hc
    exact absurd (h ':' hc) (by decide)

private theorem readSelector_numeric {s : String} {n : Nat} (h : Unmarked s.toList)
    (hvalue : digitsValue s.toList = some n) (hn : ¬maxPort < n) :
    readSelector s = some (.numericPort n) := by
  unfold maxPort at hn
  have hatoi : atoi s = some (n : Int) := by
    rw [atoi_unmarked h,hvalue,Option.map_some,Option.filter_some,if_pos]
    · rfl
    · simp only [decide_eq_true_eq,Int.ofNat_eq_natCast]
      omega
  rw [readSelector,hatoi]
  dsimp only
  rw [if_neg]
  unfold maxPort
  omega

private theorem readSelector_eq_some {s : String} {p : PortSelector} (h : readSelector s = some p) :
    (∃ n : Nat, ¬maxPort < n ∧ atoi s = some (n : Int) ∧ p = .numericPort n) ∨
      dnsLabelPattern s = true ∧ p = .namedPort s := by
  unfold readSelector at h
  cases hatoi : atoi s with
  | none =>
    rw [hatoi] at h
    dsimp only at h
    split at h
    · exact .inr ⟨by assumption,(Option.some.inj h).symm⟩
    · cases h
  | some n =>
    rw [hatoi] at h
    dsimp only at h
    split at h
    · cases h
    · rename_i hrange
      lift n to ℕ using by omega
      exact .inl ⟨n,by omega,rfl,(Option.some.inj h).symm⟩

private theorem portText_of_label {s : String} (h : dnsLabelPattern s = true) :
    PortText s.toList := by
  unfold dnsLabelPattern at h
  cases hs : s.toList with
  | nil =>
    rw [hs] at h
    cases h
  | cons c cs =>
    rw [hs] at h
    simp only [Bool.and_eq_true,List.all_eq_true] at h
    apply portText_of_forall (by simp)
    intro d hd
    rcases List.mem_cons.mp hd with rfl | hd
    · simp [portChar,h.1]
    · exact h.2 d hd

/-- A selector that was read, but for the number zero, is printed as a port that is read back. -/
theorem readSelector_toText {p : PortSelector} {port : String} (h : readSelector port = some p)
    (hzero : p ≠ .numericPort 0) :
    readSelector p.toText = some p ∧ PortText p.toText.toList := by
  rcases readSelector_eq_some h with ⟨n,hn,-,rfl⟩ | ⟨hlabel,rfl⟩
  · have hpos : 0 < n := Nat.pos_of_ne_zero (by rintro rfl; exact hzero rfl)
    have htext : (PortSelector.numericPort n).toText = n.repr := by
      rw [PortSelector.toText,if_pos (by simpa [PortSelector.isNumeric,PortSelector.numericPort])]
      rfl
    rw [htext]
    have hdigits : ∀ c ∈ n.repr.toList, isDigit c = true := fun c hc => isDigit_of_mem hc
    constructor
    · exact readSelector_numeric (unmarked_of_digits hdigits) (digitsValue_repr n) hn
    · apply portText_of_forall
      · rw [Nat.repr,String.toList_ofList]
        exact Nat.toDigits_ne_nil
      · intro c hc
        simp [portChar,hdigits c hc]
  · have htext : (PortSelector.namedPort port).toText = port := rfl
    rw [htext]
    exact ⟨h,portText_of_label hlabel⟩

end printing

/-! ## Both languages -/

section languages

variable {raw : String}

/-- The number that JavaScript reads is the one that Go reads, if it has no sign. -/
theorem readNumber_iff {s : String} {n : Nat} :
    readNumber s = some n ↔ readSelector s = some (.numericPort n) ∧ Unmarked s.toList := by
  constructor
  · intro h
    obtain ⟨hvalue,hrange⟩ := Option.filter_eq_some_iff.mp h
    have hdigits : ∀ c ∈ s.toList, isDigit c = true := by
      unfold digitsValue at hvalue
      split at hvalue
      · rename_i hall
        exact List.all_eq_true.mp hall.2
      · cases hvalue
    have hplain := unmarked_of_digits hdigits
    exact ⟨readSelector_numeric hplain hvalue (by simpa using hrange),hplain⟩
  · rintro ⟨h,hplain⟩
    rcases readSelector_eq_some h with ⟨m,hm,hatoi,hp⟩ | ⟨hlabel,hp⟩
    · have hnm : (n : Int) = m := by simpa [PortSelector.numericPort] using hp
      rw [atoi_unmarked hplain] at hatoi
      obtain ⟨hvalue,-⟩ := Option.filter_eq_some_iff.mp hatoi
      obtain ⟨k,hk,hkm⟩ := Option.map_eq_some_iff.mp hvalue
      have hkn : k = n := by
        have hint : (k : Int) = m := hkm
        omega
      rw [readNumber,hk,hkn,Option.filter_some,if_pos]
      simpa [hnm] using hm
    · have hname : s = "" := (congrArg PortSelector.name hp).symm
      rw [hname] at hlabel
      cases hlabel

/-- The texts that are trimmed in a target are trimmed to the same by both languages. -/
structure TrimsAlike (raw : String) : Prop where
  whole : Text.trimSpace raw = Ecma.trim raw
  names : ∀ body, schemeless (Ecma.trim raw) = some body →
    ∀ names, cutChar (pathPart body) '/' = some names →
      Text.trimSpace names.1 = Ecma.trim names.1 ∧ Text.trimSpace names.2 = Ecma.trim names.2
  port : ∀ body, schemeless (Ecma.trim raw) = some body →
    Text.trimSpace (portPart body) = Ecma.trim (portPart body)

/-- The port of the target has no sign. -/
def Unsigned (raw : String) : Prop :=
  ∀ body, schemeless (Text.trimSpace raw) = some body →
    Unmarked (Text.trimSpace (portPart body)).toList

private theorem readPath_eq_some {ρ : Type} {trim : String → String} {readPort : String → Option ρ}
    {body : String} {x : String × String × ρ} : readPath trim readPort body = some x ↔
      ∃ names, cutChar (pathPart body) '/' = some names ∧
        ¬(trim names.1 = "" ∨ trim names.2 = "" ∨ '/' ∈ (trim names.2).toList) ∧
        trim (portPart body) ≠ "" ∧ readPort (trim (portPart body)) = some x.2.2 ∧
        x.1 = trim names.1 ∧ x.2.1 = trim names.2 := by
  unfold readPath
  rw [Option.bind_eq_some_iff]
  apply exists_congr
  intro names
  apply and_congr_right
  intro _
  split
  · simp_all
  · split
    · simp_all
    · rename_i hparts hport
      rw [Option.map_eq_some_iff]
      constructor
      · rintro ⟨port,hread,rfl⟩
        exact ⟨hparts,hport,hread,rfl,rfl⟩
      · rintro ⟨-,-,hread,happ,hservice⟩
        exact ⟨x.2.2,hread,by rw [← happ,← hservice]⟩

private theorem readTarget_eq_some {ρ : Type} {trim : String → String}
    {readPort : String → Option ρ}
    {x : String × String × ρ} : readTarget trim readPort raw = some x ↔
      ∃ body, schemeless (trim raw) = some body ∧ readPath trim readPort body = some x :=
  Option.bind_eq_some_iff

private theorem readTarget_number (h : TrimsAlike raw) {app service : String} {port : Nat} :
    readTarget Ecma.trim readNumber raw = some (app,service,port) ↔
      readTarget Text.trimSpace readSelector raw = some (app,service,.numericPort port) ∧
        Unsigned raw := by
  rw [readTarget_eq_some,readTarget_eq_some,h.whole]
  constructor
  · rintro ⟨body,hbody,hread⟩
    obtain ⟨names,hcut,hparts,hne,hport,happ,hservice⟩ := readPath_eq_some.mp hread
    have hnames := h.names body hbody names hcut
    rw [← hnames.1,← hnames.2] at hparts
    rw [← hnames.1] at happ
    rw [← hnames.2] at hservice
    rw [← h.port body hbody] at hne hport
    have hnumber := readNumber_iff.mp hport
    refine ⟨⟨body,hbody,readPath_eq_some.mpr ⟨names,hcut,hparts,hne,hnumber.1,happ,hservice⟩⟩,?_⟩
    intro other hother
    rw [h.whole,hbody] at hother
    cases hother
    exact hnumber.2
  · rintro ⟨⟨body,hbody,hread⟩,hunsigned⟩
    obtain ⟨names,hcut,hparts,hne,hport,happ,hservice⟩ := readPath_eq_some.mp hread
    have hnames := h.names body hbody names hcut
    have hplain := hunsigned body (h.whole ▸ hbody)
    rw [hnames.1,hnames.2] at hparts
    rw [hnames.1] at happ
    rw [hnames.2] at hservice
    rw [h.port body hbody] at hne hport hplain
    exact ⟨body,hbody,readPath_eq_some.mpr
      ⟨names,hcut,hparts,hne,readNumber_iff.mpr ⟨hport,hplain⟩,happ,hservice⟩⟩

private theorem targetRaw_eq (t : Target) : t.targetRaw =
    String.ofList (printed t.app t.service t.portSelector.toText.toList) := by
  apply String.toList_inj.mp
  rw [String.toList_ofList]
  simp [Target.targetRaw,printed]

/-- A target that was read, but for the number zero, is printed to a text that is read as it. -/
theorem parseTarget_targetRaw {t : Target} (h : parseTarget raw = .ok t)
    (hzero : t.portSelector ≠ .numericPort 0) :
    parseTarget t.targetRaw = .ok t ∧
      parseTarget (dominionSchemePrefix ++ t.targetRaw) = .ok t := by
  obtain ⟨body,-,hread⟩ := readTarget_eq_some.mp (parseTarget_eq_ok.mp h)
  obtain ⟨_,_,_,_,hport,_,_⟩ := readPath_eq_some.mp hread
  obtain ⟨hselector,htext⟩ := readSelector_toText hport hzero
  rw [← String.ofList_toList (s := t.portSelector.toText)] at hselector
  have hback := readTarget_printed (readable_of_read hread) htext hselector
  rw [targetRaw_eq]
  exact ⟨parseTarget_eq_ok.mpr hback.1,parseTarget_eq_ok.mpr hback.2⟩

/-- A target whose port is not the number zero is printed to a text that Go reads as it, with the
scheme and without, and the two languages read the same texts to the same numeric ports, but for
signs and for white space of only one of the languages. -/
theorem targets_read_back (raw : String) :
    (∀ t, parseTarget raw = .ok t → t.portSelector ≠ .numericPort 0 →
      parseTarget t.targetRaw = .ok t ∧
        parseTarget (dominionSchemePrefix ++ t.targetRaw) = .ok t) ∧
    (TrimsAlike raw → ∀ app service port, Js.parseTarget raw = .ok ⟨app,service,port⟩ ↔
      parseTarget raw = .ok ⟨app,service,.numericPort port⟩ ∧ Unsigned raw) := by
  constructor
  · intro t h hzero
    exact parseTarget_targetRaw h hzero
  · intro h app service port
    rw [Js.parseTarget_eq_ok,parseTarget_eq_ok]
    exact readTarget_number h

/-- A white space of both languages or of none. -/
def PlainChar (c : Char) : Prop :=
  c.toNat ≠ 133 ∧ c.toNat ≠ 65279

private theorem isWhiteSpace_of_plain {c : Char} (h : PlainChar c) :
    Ecma.isWhiteSpace c = Text.isSpace c := by
  unfold PlainChar at h
  rw [Bool.eq_iff_iff]
  simp only [Ecma.isWhiteSpace,Text.isSpace,List.mem_cons,List.not_mem_nil,or_false,
    Bool.or_eq_true,Bool.and_eq_true,decide_eq_true_eq]
  omega

private theorem dropWhile_congr {p q : Char → Bool} {cs : List Char} (h : ∀ c ∈ cs, p c = q c) :
    cs.dropWhile p = cs.dropWhile q := by
  induction cs with
  | nil => rfl
  | cons c cs ih =>
    have hrest := ih fun d hd => h d (List.mem_cons_of_mem c hd)
    simp [List.dropWhile_cons,h c List.mem_cons_self,hrest]

private theorem trim_congr {s : String} (h : ∀ c ∈ s.toList, PlainChar c) :
    Text.trimSpace s = Ecma.trim s := by
  have hsame : ∀ c ∈ s.toList, Text.isSpace c = Ecma.isWhiteSpace c := fun c hc =>
    (isWhiteSpace_of_plain (h c hc)).symm
  unfold Text.trimSpace Ecma.trim List.rdropWhile
  rw [dropWhile_congr hsame]
  apply congrArg
  apply congrArg
  apply dropWhile_congr
  intro c hc
  exact hsame c ((List.dropWhile_sublist _).subset (List.mem_reverse.mp hc))

private theorem mem_of_cutChar {s : String} {sep c : Char} {parts : String × String}
    (h : cutChar s sep = some parts) :
    (c ∈ parts.1.toList → c ∈ s.toList) ∧ (c ∈ parts.2.toList → c ∈ s.toList) := by
  unfold cutChar at h
  split at h
  · cases h
    simp only [String.toList_ofList]
    constructor
    · intro hc
      exact (List.takeWhile_sublist _).subset hc
    · intro hc
      exact (List.dropWhile_sublist _).subset (List.mem_of_mem_tail hc)
  · cases h

private theorem mem_of_pathPart {body : String} {c : Char} (h : c ∈ (pathPart body).toList) :
    c ∈ body.toList := by
  unfold pathPart at h
  cases hcut : cutChar body ':' with
  | none => rwa [hcut] at h
  | some parts =>
    rw [hcut] at h
    exact (mem_of_cutChar hcut).1 h

private theorem mem_of_portPart {body : String} {c : Char} (h : c ∈ (portPart body).toList) :
    c ∈ body.toList := by
  unfold portPart at h
  cases hcut : cutChar body ':' with
  | none =>
    rw [hcut] at h
    simp at h
  | some parts =>
    rw [hcut] at h
    exact (mem_of_cutChar hcut).2 h

private theorem mem_of_schemeless {trimmed body : String} {c : Char}
    (h : schemeless trimmed = some body) (hc : c ∈ body.toList) : c ∈ trimmed.toList := by
  unfold schemeless at h
  split at h
  · rw [← Option.some.inj h,String.toList_ofList] at hc
    exact List.mem_of_mem_drop hc
  · split at h
    · cases h
    · rw [← Option.some.inj h] at hc
      exact hc

/-- A text with neither U+0085 nor U+FEFF is trimmed alike. -/
theorem trimsAlike_of_plain (h : ∀ c ∈ raw.toList, PlainChar c) : TrimsAlike raw := by
  have hbody : ∀ body, schemeless (Ecma.trim raw) = some body →
      ∀ c ∈ body.toList, PlainChar c := by
    intro body hsome c hc
    have htrimmed := mem_of_schemeless hsome hc
    rw [Ecma.trim,String.toList_ofList] at htrimmed
    exact h c (mem_of_trim htrimmed)
  constructor
  · exact trim_congr h
  · intro body hsome names hcut
    constructor
    · apply trim_congr
      intro c hc
      exact hbody body hsome c (mem_of_pathPart ((mem_of_cutChar hcut).1 hc))
    · apply trim_congr
      intro c hc
      exact hbody body hsome c (mem_of_pathPart ((mem_of_cutChar hcut).2 hc))
  · intro body hsome
    apply trim_congr
    intro c hc
    exact hbody body hsome c (mem_of_portPart hc)

end languages

/-- A numeric and a named port are read back, and JavaScript reads the numeric one. -/
theorem targets_read_back_demo :
    parseTarget (Target.targetRaw ⟨"app","service",.namedPort "grpc"⟩) =
        .ok ⟨"app","service",.namedPort "grpc"⟩ ∧
      Js.parseTarget " app/service:8080 " = .ok ⟨"app","service",8080⟩ := by
  have hnamed : parseTarget "app/service: grpc" = .ok ⟨"app","service",.namedPort "grpc"⟩ := by
    decide
  have hnumeric : parseTarget " app/service:8080 " =
      .ok ⟨"app","service",.numericPort (8080 : Nat)⟩ := by
    decide
  have hplain : TrimsAlike " app/service:8080 " := by
    apply trimsAlike_of_plain
    have hall : " app/service:8080 ".toList.all fun c => c.toNat != 133 && c.toNat != 65279 := by
      decide
    intro c hc
    have hchar := List.all_eq_true.mp hall c hc
    simpa [PlainChar] using hchar
  have hunsigned : Unsigned " app/service:8080 " := by
    intro body hbody
    have heq : body = "app/service:8080" := by
      have hsome : schemeless (Text.trimSpace " app/service:8080 ") = some "app/service:8080" := by
        decide
      rw [hsome] at hbody
      exact (Option.some.inj hbody).symm
    rw [heq]
    unfold Unmarked
    decide
  constructor
  · exact ((targets_read_back "app/service: grpc").1 _ hnamed (by decide)).1
  · exact ((targets_read_back " app/service:8080 ").2 hplain "app" "service" 8080).mpr
      ⟨hnumeric,hunsigned⟩

/-- The port zero is printed to a text that is refused, JavaScript refuses a port with a sign, and
it trims U+FEFF, which Go keeps. -/
theorem targets_differ :
    parseTarget "app/service:0" = .ok ⟨"app","service",.numericPort 0⟩ ∧
      (∀ t, parseTarget (Target.targetRaw ⟨"app","service",.numericPort 0⟩) ≠ .ok t) ∧
    parseTarget "app/service:+1" = .ok ⟨"app","service",.numericPort 1⟩ ∧
      (∀ t, Js.parseTarget "app/service:+1" ≠ .ok t) ∧
    (∃ raw, Js.parseTarget raw = .ok ⟨"app","service",1⟩ ∧
      parseTarget raw ≠ .ok ⟨"app","service",.numericPort 1⟩) := by
  refine ⟨by decide,?_,by decide,?_,?_⟩
  · have hread : readTarget Text.trimSpace readSelector
        (Target.targetRaw ⟨"app","service",.numericPort 0⟩) = none := by
      decide
    intro t ht
    rw [parseTarget_eq_ok,hread] at ht
    cases ht
  · have hread : readTarget Ecma.trim readNumber "app/service:+1" = none := by
      decide
    intro t ht
    rw [Js.parseTarget_eq_ok,hread] at ht
    cases ht
  · exact ⟨"app/service:1\uFEFF",by decide,by decide⟩

end Dominion.Solver
