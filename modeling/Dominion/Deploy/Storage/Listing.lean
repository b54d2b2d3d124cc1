import Dominion.Deploy.Storage.Documents
import Dominion.Framework.Base64
import Dominion.Framework.Fallible
import Dominion.Framework.Pages
import Dominion.Framework.Seek
import Dominion.Solver.Decimal
import Mathlib.Data.List.Perm.Basic

/-! # Listing of environments

`ListByScope` counts the documents of a scope, reads the ones behind an offset in the order of
their names, and answers with the offset of the next page, encoded as a token. -/
namespace Dominion.Deploy.Mapping

open Dominion.Framework
open Dominion.Deploy.Domain (Err)
open Dominion.Solver (atoi)

/-! ## Page tokens -/

/-- The bytes of a text in ASCII. -/
def asciiBytes (s : String) : List UInt8 :=
  s.toList.map fun c => UInt8.ofNat c.toNat

/-- The text of bytes; the ones that are not ASCII are no part of a number either way. -/
def asciiText (bytes : List UInt8) : String :=
  String.ofList (bytes.map fun b => Char.ofNat b.toNat)

/-- `EncodePageToken`. -/
def encodePageToken (offset : Int) : String :=
  String.ofList (Base64.encode (asciiBytes offset.repr))

def invalidPageToken : Err :=
  .new "invalid page token"

/-- `DecodePageToken`. -/
def decodePageToken (token : String) : Except Err Int :=
  if token = "" then .ok 0
  else
    match Base64.decode token.toList with
    | none => .error invalidPageToken
    | some decoded =>
      match atoi (asciiText decoded) with
      | none => .error invalidPageToken
      | some offset => .ok offset

theorem asciiText_asciiBytes {s : String} (h : ∀ c ∈ s.toList, c.toNat < 128) :
    asciiText (asciiBytes s) = s := by
  have hmap : (asciiBytes s).map (fun b => Char.ofNat b.toNat) = s.toList := by
    rw [asciiBytes,List.map_map]
    conv => rhs; rw [← List.map_id s.toList]
    apply List.map_congr_left
    intro c hc
    have hlt := h c hc
    have hbyte : (UInt8.ofNat c.toNat).toNat = c.toNat := by
      rw [UInt8.toNat_ofNat']
      omega
    rw [Function.comp_apply,hbyte,Char.ofNat_toNat,id]
  rw [asciiText,hmap,String.ofList_toList]

theorem ascii_repr {n : Nat} : ∀ c ∈ n.repr.toList, c.toNat < 128 := by
  intro c hc
  have hdigit := isDigit_of_mem_repr hc
  simp only [Char.isDigit,Bool.and_eq_true,decide_eq_true_eq] at hdigit
  have hle : c.val.toNat ≤ 57 := UInt32.le_iff_toNat_le.mp hdigit.2
  exact Nat.lt_of_le_of_lt hle (by decide)

theorem encodePageToken_ne_nil (n : Nat) : encodePageToken n ≠ "" := by
  intro h
  have hlist := congrArg String.toList h
  rw [encodePageToken,String.toList_ofList] at hlist
  have hbytes := Base64.encode_eq_nil hlist
  have hdigits : n.repr.toList = [] := List.map_eq_nil_iff.mp hbytes
  rw [Nat.repr,String.toList_ofList] at hdigits
  exact Nat.toDigits_ne_nil hdigits

/-- A token is decoded to the offset that it encodes. -/
theorem decodePageToken_encodePageToken {n : Nat} (hn : n < 9223372036854775808) :
    decodePageToken (encodePageToken n) = .ok (n : Int) := by
  have htext : asciiText (asciiBytes (Int.repr (n : Int))) = n.repr :=
    asciiText_asciiBytes ascii_repr
  rw [decodePageToken,if_neg (encodePageToken_ne_nil n),encodePageToken,String.toList_ofList,
    Base64.decode_encode]
  simp only [htext,Solver.atoi_repr hn]

/-! ## The collection -/

namespace MongoEnvironment

/-- The field of the unique index. -/
def name (m : MongoEnvironment) : String :=
  "deploy/scopes/" ++ m.scope ++ "/environments/" ++ m.envName

/-- Whether the filter of `ListByScope` matches; `-` is the wildcard of AIP-159. -/
def MatchesScope (scope : String) (m : MongoEnvironment) : Prop :=
  scope = "-" ∨ m.scope = scope

instance (scope : String) (m : MongoEnvironment) : Decidable (m.MatchesScope scope) :=
  inferInstanceAs (Decidable (_ ∨ _))

end MongoEnvironment

/-- The stored documents: the repository wrote them, and the driver counts them with an `int64`. -/
structure Collection where
  docs : List MongoEnvironment
  written : ∀ doc ∈ docs, Written doc
  unique : (docs.map MongoEnvironment.name).Nodup
  counted : docs.length < 9223372036854775808

namespace Collection

def matching (c : Collection) (scope : String) : List MongoEnvironment :=
  c.docs.filter (·.MatchesScope scope)

/-- The documents of a scope in the order of their names. -/
def sorted (c : Collection) (scope : String) : List MongoEnvironment :=
  Seek.sorted (compareOn MongoEnvironment.name) (c.matching scope)

end Collection

def mongoDefaultPageSize : Int := 100

/-- `ListByScope`; `rejected` is the server's answer to a negative offset. -/
def listByScope (rejected : Err) (c : Collection) (scope : String) (pageSize : Int32)
    (pageToken : String) : Except Err (List Environment × String) :=
  let pageSize := if pageSize ≤ 0 then mongoDefaultPageSize else pageSize.toInt
  match decodePageToken pageToken with
  | .error err => .error (err.withContext "invalid page token: ")
  | .ok skip =>
    let total : Int := (c.matching scope).length
    if total ≤ skip then .ok ([],"")
    else if skip < 0 then .error rejected
    else
      match (((c.sorted scope).drop skip.toNat).take pageSize.toNat).mapM
          MongoEnvironment.toDomain with
      | .error err => .error err
      | .ok envs =>
        let nextSkip := skip + envs.length
        if total ≤ nextSkip then .ok (envs,"") else .ok (envs,encodePageToken nextSkip)

/-- A call of a client, for which the empty token is none. -/
def listPage (rejected : Err) (c : Collection) (scope : String) (pageSize : Int32)
    (token : Option String) : Except Err (List Environment × Option String) :=
  (listByScope rejected c scope pageSize (token.getD "")).map fun answer =>
    (answer.1,if answer.2 = "" then none else some answer.2)

/-! ## Documents and environments -/

theorem rehydrateEnvironment_name {snapshot : EnvironmentSnapshot} {env : Environment}
    (h : rehydrateEnvironment snapshot = .ok env) : env.name = snapshot.name := by
  unfold rehydrateEnvironment at h
  split at h
  · cases h
  · cases h
  · split at h
    · cases h
    · cases h
      rfl

/-- A document is read as an environment of its name. -/
theorem toDomain_name {doc : MongoEnvironment} {env : Environment} (h : doc.toDomain = .ok env) :
    env.name.toString = doc.name := by
  unfold MongoEnvironment.toDomain at h
  split at h
  · cases h
  · rename_i name hname
    obtain ⟨hscope,henvName⟩ := Domain.newEnvironmentName_ok hname
    rw [rehydrateEnvironment_name h]
    exact congrArg₂ (fun s e => "deploy/scopes/" ++ s ++ "/environments/" ++ e) hscope henvName

namespace Collection

variable (c : Collection) (scope : String)

theorem perm_sorted : (c.sorted scope).Perm (c.matching scope) :=
  Seek.perm_sorted _

theorem sorted_strict :
    (c.sorted scope).Pairwise fun a b => a.name < b.name := by
  have hunique : ((c.matching scope).map MongoEnvironment.name).Nodup :=
    c.unique.sublist (List.filter_sublist.map _)
  have hdistinct : Seek.Distinct (compareOn MongoEnvironment.name) (c.matching scope) := by
    apply (List.pairwise_map.mp hunique).imp
    intro a b hne heq
    exact hne (Std.LawfulEqOrd.eq_of_compare heq)
  apply hdistinct.sorted.imp
  intro a b hlt
  exact compareOfLessAndEq_eq_lt.mp hlt

/-- Every document of a scope is read. -/
theorem exists_environments : ∃ envs, List.Forall₂ (fun doc env =>
    MongoEnvironment.toDomain doc = .ok env) (c.sorted scope) envs := by
  have hread : ∀ doc ∈ c.sorted scope, ∃ env, doc.toDomain = .ok env := by
    intro doc hdoc
    have hmem := List.mem_filter.mp ((c.perm_sorted scope).mem_iff.mp hdoc)
    obtain ⟨env,henv,-⟩ := toDomain_of_readable (readable_of_written (c.written doc hmem.1))
    exact ⟨env,henv⟩
  generalize c.sorted scope = docs at hread
  induction docs with
  | nil => exact ⟨[],.nil⟩
  | cons doc docs ih =>
    obtain ⟨hdoc,hdocs⟩ := List.forall_mem_cons.mp hread
    obtain ⟨env,henv⟩ := hdoc
    obtain ⟨envs,henvs⟩ := ih hdocs
    exact ⟨env :: envs,.cons henv henvs⟩

theorem length_sorted_lt : (c.sorted scope).length < 9223372036854775808 := by
  rw [(c.perm_sorted scope).length_eq]
  exact Nat.lt_of_le_of_lt (List.length_filter_le _ _) c.counted

end Collection

/-! ## Pages -/

theorem pageSize_pos (pageSize : Int32) :
    0 < if pageSize ≤ 0 then mongoDefaultPageSize else pageSize.toInt := by
  split
  · decide
  · rename_i hpos
    rw [Int32.le_iff_toInt_le] at hpos
    have hzero : (0 : Int32).toInt = 0 := by decide
    omega

/-- What a call answers at an offset that its token encodes. -/
theorem listByScope_at (rejected : Err) {c : Collection} {scope : String} (pageSize : Int32)
    {token : String} {n : Nat} {envs : List Environment}
    (htoken : decodePageToken token = .ok (n : Int))
    (henvs : List.Forall₂ (fun doc env => MongoEnvironment.toDomain doc = .ok env) (c.sorted scope)
      envs) : ∃ k, 0 < k ∧ listByScope rejected c scope pageSize token =
        if envs.length ≤ n then .ok ([],"")
        else if envs.length ≤ n + k then .ok (envs.drop n,"")
        else .ok ((envs.drop n).take k,encodePageToken ((n + k : Nat) : Int)) := by
  have hpos := pageSize_pos pageSize
  have htotal : (c.matching scope).length = envs.length := by
    rw [← (c.perm_sorted scope).length_eq]
    exact henvs.length_eq
  unfold listByScope
  dsimp only
  generalize (if pageSize ≤ 0 then mongoDefaultPageSize else pageSize.toInt) = size at hpos
  refine ⟨size.toNat,by omega,?_⟩
  have hpage := mapM_of_forall₂ (List.forall₂_take size.toNat (List.forall₂_drop n henvs))
  rw [htoken]
  simp only [htotal,Int.toNat_natCast,hpage,Int.ofNat_le]
  by_cases hend : envs.length ≤ n
  · rw [if_pos hend,if_pos hend]
  · have hnonneg : ¬(n : Int) < 0 := by omega
    rw [if_neg hend,if_neg hend,if_neg hnonneg]
    have hlength : ((envs.drop n).take size.toNat).length =
        min size.toNat (envs.length - n) := by
      rw [List.length_take,List.length_drop]
    by_cases hlast : envs.length ≤ n + size.toNat
    · have hall : (envs.drop n).take size.toNat = envs.drop n := by
        rw [List.take_of_length_le]
        rw [List.length_drop]
        omega
      rw [if_pos hlast,hall,if_pos]
      rw [List.length_drop]
      omega
    · have hfull : ((envs.drop n).take size.toNat).length = size.toNat := by omega
      rw [if_neg hlast,hfull,if_neg]
      · rfl
      · omega

/-- Offsets are positions in the list of the environments. -/
theorem slices_listPage (rejected : Err) (c : Collection) (scope : String) (pageSize : Int32)
    {envs : List Environment} (henvs : List.Forall₂ (fun doc env =>
      MongoEnvironment.toDomain doc = .ok env) (c.sorted scope) envs) :
    Pages.Slices (listPage rejected c scope pageSize) envs fun token n =>
      decodePageToken (token.getD "") = .ok (n : Int) where
  last token n htoken hn := by
    obtain ⟨k,hk,hcall⟩ := listByScope_at rejected pageSize htoken henvs
    unfold listPage
    rw [hcall]
    by_cases hend : envs.length ≤ n
    · rw [if_pos hend,List.drop_eq_nil_of_le hend]
      exact .inl rfl
    · rw [if_neg hend]
      by_cases hlast : envs.length ≤ n + k
      · rw [if_pos hlast]
        exact .inl rfl
      · rw [if_neg hlast]
        have hlt : n + k < 9223372036854775808 := by
          have hbound := c.length_sorted_lt scope
          rw [henvs.length_eq] at hbound
          omega
        refine .inr ⟨k,encodePageToken ((n + k : Nat) : Int),hk,by omega,?_,?_⟩
        · exact decodePageToken_encodePageToken hlt
        · have hne := encodePageToken_ne_nil (n + k)
          simp only [Except.map,if_neg hne]

/-- The environments of a scope, each once, in the order of their names. -/
structure Lists (c : Collection) (scope : String) (envs : List Environment) : Prop where
  matching : ∃ read, (c.matching scope).mapM MongoEnvironment.toDomain = .ok read ∧ envs.Perm read
  ordered : envs.Pairwise fun a b => a.name.toString < b.name.toString

theorem names_of_read {docs : List MongoEnvironment} {envs : List Environment}
    (h : List.Forall₂ (fun doc env => MongoEnvironment.toDomain doc = .ok env) docs envs) :
    envs.map (fun env => env.name.toString) = docs.map MongoEnvironment.name := by
  induction h with
  | nil => rfl
  | cons hdoc _ ih => rw [List.map_cons,List.map_cons,toDomain_name hdoc,ih]

theorem lists_of_sorted {c : Collection} {scope : String} {envs : List Environment}
    (henvs : List.Forall₂ (fun doc env => MongoEnvironment.toDomain doc = .ok env) (c.sorted scope)
      envs) : Lists c scope envs where
  matching := by
    obtain ⟨read,hread,hperm⟩ := List.perm_comp_forall₂ (c.perm_sorted scope).symm henvs
    exact ⟨read,mapM_of_forall₂ hread,hperm.symm⟩
  ordered := by
    have hstrict := List.pairwise_map.mpr (c.sorted_strict scope)
    rw [← names_of_read henvs] at hstrict
    exact List.pairwise_map.mp hstrict

/-- The pages of a scope are its environments in the order of their names, each once.  The walk
ends, with the page whose token is empty, and no page is empty unless the list is. -/
theorem listing_partitions (rejected : Err) (c : Collection) (scope : String) (pageSize : Int32) :
    ∃ pages, Pages.Walk (listPage rejected c scope pageSize) none pages ∧
      Lists c scope pages.flatten ∧ (pages.flatten ≠ [] → ∀ page ∈ pages, page ≠ []) := by
  obtain ⟨envs,henvs⟩ := c.exists_environments scope
  have hslices := slices_listPage rejected c scope pageSize henvs
  have hstart : decodePageToken ((none : Option String).getD "") = .ok ((0 : Nat) : Int) := rfl
  obtain ⟨pages,hwalk,hpages⟩ := hslices.walk hstart (Nat.zero_le _)
  rw [List.drop_zero] at hpages
  refine ⟨pages,hwalk,hpages ▸ lists_of_sorted henvs,?_⟩
  intro hne
  rw [hpages] at hne
  exact hslices.ne_nil hstart (List.length_pos_of_ne_nil hne) hwalk

end Dominion.Deploy.Mapping
