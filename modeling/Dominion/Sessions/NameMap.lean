import Dominion.Sessions.Service
import Mathlib.Data.List.Basic
import Mathlib.Logic.Function.Basic

/-! # The sessions as a map from their names

The answers of the service over whole sequences of requests, beside those of the map that the
resource names promise. -/
namespace Dominion.Sessions

open Dominion.Framework

/-! ## Requests and answers -/

/-- A request, or a walk with one page size for each of its requests. -/
inductive Request (Time : Type)
  | create (req : CreateSessionRequest Time)
  | get (name : Except String SessionName)
  | delete (name : Except String SessionName)
  | walk (parent : Except String TemplateName)
      (pageSizes : Nat → {n : Int // n ≤ maxListSessionsPageSize})

inductive Answer (Time : Type)
  | session (s : ProtoSession Time)
  | deleted
  | sessions (all : List (ProtoSession Time))
  | failed (status : Status)
  /-- The walk did not end within as many requests as there are sessions, and one more. -/
  | endless
  deriving DecidableEq, Repr

section serve

variable {Time : Type} [LinearOrder Time] (clock : Clock Time)

def answerSession (result : Except Status (ProtoSession Time)) : Answer Time :=
  match result with
  | .ok s => .session s
  | .error status => .failed status

def serve (c : Collection Time) : Request Time → Answer Time × Collection Time
  | .create req =>
    match createSession clock c req with
    | (result,c) => (answerSession result,c)
  | .get name => (answerSession (getSession clock c name),c)
  | .delete name =>
    match deleteSession c name with
    | (.ok _,c) => (.deleted,c)
    | (.error status,c) => (.failed status,c)
  | .walk parent pageSizes =>
    match walk clock c parent (fun i => (pageSizes i).1) (c.docs.length + 1) 0 none with
    | none => (.endless,c)
    | some (.ok all) => (.sessions all,c)
    | some (.error status) => (.failed status,c)

def answers (c : Collection Time) : List (Request Time) → List (Answer Time)
  | [] => []
  | r :: rest => (serve clock c r).1 :: answers (serve clock c r).2 rest

end serve

/-! ## The map -/

/-- The create time of each session by its name. -/
abbrev Names (Time : Type) :=
  SessionName → Option Time

/-- The entries of a template, each once, the newest first. -/
def ListsNewestFirst {Time : Type} [LinearOrder Time] (m : Names Time) (template : String)
    (entries : List (String × Time)) : Prop :=
  (entries.map Prod.fst).Nodup ∧
  (∀ sessionId t, (sessionId,t) ∈ entries ↔ m ⟨template,sessionId⟩ = some t) ∧
  entries.Pairwise fun a b => b.2 ≤ a.2

section spec

variable {Time : Type} [LinearOrder Time] (clock : Clock Time)

def entryToProto (template : String) (entry : String × Time) : ProtoSession Time :=
  sessionToProto clock ⟨template,entry.1,entry.2⟩

/-- What the map answers, and what it becomes. -/
def MapStep (m : Names Time) : Request Time → Answer Time → Names Time → Prop
  | .create req, a, m' =>
    match admitCreate req with
    | .error status => a = .failed status ∧ m' = m
    | .ok s =>
      if (m ⟨s.template,s.sessionId⟩).isSome then
        a = .failed (toStatusError .alreadyExists) ∧ m' = m
      else
        a = .session (sessionToProto clock s) ∧
          m' = Function.update m ⟨s.template,s.sessionId⟩ (some (clock.toMillis s.createTime))
  | .get name, a, m' =>
    m' = m ∧
    match parseName name with
    | .error status => a = .failed status
    | .ok name =>
      match m name with
      | some t => a = .session (entryToProto clock name.templateId (name.sessionId,t))
      | none => a = .failed (toStatusError .notFound)
  | .delete name, a, m' =>
    match parseName name with
    | .error status => a = .failed status ∧ m' = m
    | .ok name =>
      if (m name).isSome then a = .deleted ∧ m' = Function.update m name none
      else a = .failed (toStatusError .notFound) ∧ m' = m
  | .walk parent _, a, m' =>
    m' = m ∧
    match parseParent parent with
    | .error status => a = .failed status
    | .ok name =>
      ∃ entries, ListsNewestFirst m name.templateId entries ∧
        a = .sessions (entries.map (entryToProto clock name.templateId))

/-- The answers are those of the map. -/
def Follows (m : Names Time) : List (Request Time × Answer Time) → Prop
  | [] => True
  | (r,a) :: rest => ∃ m', MapStep clock m r a m' ∧ Follows m' rest

end spec

/-! ## Requests that keep the templates apart -/

section separate

variable {Time : Type} [LinearOrder Time] (clock : Clock Time)

/-- A new session has a new name, the first session with the id of a name is of its template, and
a walk meets sessions of its template only. -/
def separate (c : Collection Time) : Request Time → Bool
  | .create req =>
    match admitCreate req with
    | .error _ => true
    | .ok s => c.docs.all fun d => !(d.template = s.template && d.sessionId = s.sessionId)
  | .get name =>
    match parseName name with
    | .error _ => true
    | .ok n => (c.findOne n.sessionId).all fun d => d.template = n.templateId
  | .delete name =>
    match parseName name with
    | .error _ => true
    | .ok n => (c.findOne n.sessionId).all fun d => d.template = n.templateId
  | .walk parent _ =>
    match parseParent parent with
    | .error _ => true
    | .ok n => c.docs.all fun d => d.template = n.templateId

def separateRun (c : Collection Time) : List (Request Time) → Bool
  | [] => true
  | r :: rest => separate c r && separateRun (serve clock c r).2 rest

end separate

/-! ## The invariant -/

def SessionDocument.name {Time : Type} (d : SessionDocument Time) : SessionName :=
  ⟨d.template,d.sessionId⟩

/-- The collection holds the map. -/
structure Holds {Time : Type} (clock : Clock Time) (c : Collection Time) (m : Names Time) :
    Prop where
  indexes : ∀ index ∈ c.indexes, index.unique = false
  names : (c.docs.map SessionDocument.name).Nodup
  entries : ∀ n t, m n = some t ↔ ∃ d ∈ c.docs, d.name = n ∧ d.createTime = t
  ids : ∀ d ∈ c.docs, d.sessionId ≠ ""
  millis : ∀ d ∈ c.docs, clock.toMillis d.createTime = d.createTime

section steps

variable {Time : Type} [LinearOrder Time] {clock : Clock Time} {c : Collection Time}
  {m : Names Time}

private theorem insertOne_of_plain (h : ∀ index ∈ c.indexes, index.unique = false)
    (doc : SessionDocument Time) : c.insertOne doc = some { c with docs := c.docs ++ [doc] } := by
  have hnone : (c.indexes.any fun index => index.rejects c.docs doc) = false := by
    rw [List.any_eq_false]
    intro index hindex
    simp [IndexModel.rejects,h index hindex]
  simp [Collection.insertOne,hnone]

private theorem newId_ne (bytes : Vector UInt8 16) : newId bytes ≠ "" := by
  intro hempty
  have hnil : (bytes.toList.flatMap fun b =>
      [hexDigit (b.toNat / 16),hexDigit (b.toNat % 16)]) = [] :=
    String.ofList_injective (hempty.trans (by simp))
  have hlength : bytes.toList.length = 16 := by simp
  cases hbytes : bytes.toList with
  | nil =>
    rw [hbytes] at hlength
    cases hlength
  | cons b rest =>
    rw [hbytes] at hnil
    cases hnil

omit [LinearOrder Time] in
private theorem admitCreate_sessionId {req : CreateSessionRequest Time} {s : Session Time}
    (h : admitCreate req = .ok s) : s.sessionId ≠ "" := by
  unfold admitCreate at h
  split at h
  · cases h
  split at h
  · cases h
  rename_i sessionId hid
  split at h
  · cases h
  cases h
  show sessionId ≠ ""
  split at hid
  · cases hgenerated : req.generated with
    | error message =>
      rw [hgenerated] at hid
      cases hid
    | ok bytes =>
      rw [hgenerated] at hid
      cases hid
      exact newId_ne bytes
  · rename_i hgiven
    cases hid
    exact hgiven

private theorem Holds.create (h : Holds clock c m) {s : Session Time} (hid : s.sessionId ≠ "")
    (hnew : ∀ d ∈ c.docs, ¬(d.template = s.template ∧ d.sessionId = s.sessionId)) :
    (c.create clock s).1 = .ok s ∧ (m ⟨s.template,s.sessionId⟩).isSome = false ∧
      Holds clock (c.create clock s).2
        (Function.update m ⟨s.template,s.sessionId⟩ (some (clock.toMillis s.createTime))) := by
  let doc : SessionDocument Time := ⟨s.template,s.sessionId,clock.toMillis s.createTime⟩
  have hcreate : c.create clock s = (.ok s,{ c with docs := c.docs ++ [doc] }) := by
    simp [Collection.create,insertOne_of_plain h.indexes,doc]
  have hname : ∀ d ∈ c.docs, d.name ≠ doc.name := by
    intro d hd he
    have hboth : d.template = s.template ∧ d.sessionId = s.sessionId := by
      simpa [SessionDocument.name,doc] using he
    exact hnew d hd hboth
  rw [hcreate]
  refine ⟨rfl,?_,h.indexes,?_,?_,?_,?_⟩
  · cases hm : m ⟨s.template,s.sessionId⟩ with
    | none => rfl
    | some t =>
      obtain ⟨d,hd,hn,-⟩ := (h.entries _ t).mp hm
      exact absurd hn (hname d hd)
  · show ((c.docs ++ [doc]).map SessionDocument.name).Nodup
    rw [List.map_append]
    refine List.nodup_append.mpr ⟨h.names,by simp,fun a ha b hb he => ?_⟩
    obtain ⟨d,hd,rfl⟩ := List.mem_map.mp ha
    obtain rfl : b = doc.name := by simpa using hb
    exact hname d hd he
  · intro n t
    show _ ↔ ∃ d ∈ c.docs ++ [doc], d.name = n ∧ d.createTime = t
    by_cases hn : n = doc.name
    · subst hn
      have hself : Function.update m ⟨s.template,s.sessionId⟩ (some doc.createTime) doc.name =
          some doc.createTime := Function.update_self ..
      constructor
      · intro ht
        have hsome : some doc.createTime = some t := hself.symm.trans ht
        exact ⟨doc,by simp,rfl,Option.some.inj hsome⟩
      · rintro ⟨d,hd,hdn,rfl⟩
        rcases List.mem_append.mp hd with hd | hd
        · exact absurd hdn (hname d hd)
        · obtain rfl := List.mem_singleton.mp hd
          exact hself
    · have hother : Function.update m ⟨s.template,s.sessionId⟩ (some doc.createTime) n = m n :=
        Function.update_of_ne hn _ m
      rw [hother,h.entries n t]
      constructor
      · rintro ⟨d,hd,hd'⟩
        exact ⟨d,List.mem_append_left _ hd,hd'⟩
      · rintro ⟨d,hd,hdn,ht⟩
        rcases List.mem_append.mp hd with hd | hd
        · exact ⟨d,hd,hdn,ht⟩
        · obtain rfl := List.mem_singleton.mp hd
          exact absurd hdn.symm hn
  · intro d hd
    rcases List.mem_append.mp hd with hd | hd
    · exact h.ids d hd
    · obtain rfl := List.mem_singleton.mp hd
      exact hid
  · intro d hd
    rcases List.mem_append.mp hd with hd | hd
    · exact h.millis d hd
    · obtain rfl := List.mem_singleton.mp hd
      exact clock.toMillis_toMillis s.createTime

omit [LinearOrder Time] in
private theorem Holds.findOne (h : Holds clock c m) {n : SessionName}
    (hfirst : ∀ d, c.findOne n.sessionId = some d → d.template = n.templateId) :
    (∀ d, c.findOne n.sessionId = some d →
      d ∈ c.docs ∧ d.name = n ∧ m n = some d.createTime) ∧
    (c.findOne n.sessionId = none → m n = none) := by
  constructor
  · intro d hd
    have hmem : d ∈ c.docs := List.mem_of_find?_eq_some hd
    have hid : d.sessionId = n.sessionId := by simpa using List.find?_some hd
    have hname : d.name = n := by
      rw [SessionDocument.name,hfirst d hd,hid]
    exact ⟨hmem,hname,(h.entries n _).mpr ⟨d,hmem,hname,rfl⟩⟩
  · intro hnone
    cases hm : m n with
    | none => rfl
    | some t =>
      obtain ⟨d,hd,hn,-⟩ := (h.entries n t).mp hm
      have hid : d.sessionId = n.sessionId := congrArg SessionName.sessionId hn
      have hnot := List.find?_eq_none.mp hnone d hd
      exact absurd (decide_eq_true hid) hnot

omit [LinearOrder Time] in
private theorem Holds.delete (h : Holds clock c m) {n : SessionName} {d : SessionDocument Time}
    (hd : c.findOne n.sessionId = some d) (hname : d.name = n) :
    ∃ c', c.deleteOne n.sessionId = some c' ∧ Holds clock c' (Function.update m n none) := by
  have hmem : d ∈ c.docs := List.mem_of_find?_eq_some hd
  have hid : d.sessionId = n.sessionId := by simpa using List.find?_some hd
  have hany : (c.docs.any fun d => d.sessionId = n.sessionId) = true :=
    List.any_eq_true.mpr ⟨d,hmem,decide_eq_true hid⟩
  obtain ⟨before,rest,hbefore,hdocs⟩ := List.find?_eq_some_iff_append.mp hd |>.2
  have herase : (c.docs.eraseP fun d => d.sessionId = n.sessionId) = before ++ rest := by
    rw [hbefore,List.eraseP_append_right _ fun e he => by simpa using hdocs e he]
    simp [hid]
  have hnodup : ((before ++ d :: rest).map SessionDocument.name).Nodup := hbefore ▸ h.names
  have hother : ∀ e ∈ before ++ rest, e.name ≠ n := by
    intro e he hen
    have hperm : (before ++ d :: rest).Perm (d :: (before ++ rest)) := List.perm_middle
    have hnodup' := (hperm.map SessionDocument.name).nodup_iff.mp hnodup
    have hnot := (List.nodup_cons.mp hnodup').1
    exact hnot (List.mem_map.mpr ⟨e,he,hen.trans hname.symm⟩)
  have hsub : ∀ e ∈ before ++ rest, e ∈ c.docs := by
    intro e he
    rw [hbefore]
    simp only [List.mem_append,List.mem_cons] at he ⊢
    tauto
  refine ⟨{ c with docs := before ++ rest },by simp [Collection.deleteOne,hany,herase],h.indexes,?_,
    fun n' t => ?_,fun e he => h.ids e (hsub e he),fun e he => h.millis e (hsub e he)⟩
  · refine hnodup.sublist (List.Sublist.map _ ?_)
    exact (List.Sublist.refl before).append (List.sublist_cons_self d rest)
  · by_cases hn : n' = n
    · subst hn
      rw [Function.update_self]
      refine iff_of_false (fun ht => by cases ht) ?_
      rintro ⟨e,he,hen,-⟩
      exact hother e he hen
    · rw [Function.update_of_ne hn,h.entries n' t]
      constructor
      · rintro ⟨e,he,hen,ht⟩
        refine ⟨e,?_,hen,ht⟩
        rw [hbefore] at he
        rcases List.mem_append.mp he with he | he
        · exact List.mem_append_left _ he
        · rcases List.mem_cons.mp he with rfl | he
          · exact absurd (hen.symm.trans hname) hn
          · exact List.mem_append_right _ he
      · rintro ⟨e,he,hen,ht⟩
        exact ⟨e,hsub e he,hen,ht⟩

omit [LinearOrder Time] in
private theorem Holds.keys (h : Holds clock c m) {template : String}
    (hsame : ∀ d ∈ c.docs, d.template = template) :
    (c.docs.map SessionDocument.key).Nodup := by
  refine List.Nodup.of_map (fun k => (⟨template,(ofLex k).2⟩ : SessionName)) ?_
  rw [List.map_map]
  have hnames : (c.docs.map fun d => (⟨template,d.sessionId⟩ : SessionName)) =
      c.docs.map SessionDocument.name :=
    List.map_congr_left fun d hd => by rw [SessionDocument.name,hsame d hd]
  exact hnames ▸ h.names

/-- The size of a page that a request asks for. -/
def sizeOf (n : {n : Int // n ≤ maxListSessionsPageSize}) : Nat :=
  if n.1 ≤ 0 then defaultListSessionsPageSize else n.1.toNat

omit [LinearOrder Time] in
private theorem sizeOf_bounds (n : {n : Int // n ≤ maxListSessionsPageSize}) :
    0 < sizeOf n ∧ sizeOf n ≤ maxListSessionsPageSize := by
  obtain ⟨n,hn⟩ := n
  unfold sizeOf
  split
  · exact ⟨by decide,by decide⟩
  · simp only at *
    omega

private theorem list_eq (c : Collection Time) {n : Nat} (hn : 0 < n)
    (cursor : Option (ListPageCursor Time)) :
    let found := Keyset.behind SessionDocument.key c.docs
      (cursor.map (ListPageCursor.key clock))
    c.list clock n cursor = ⟨(found.take n).map SessionDocument.toDomain,
      found[n]?.bind fun _ => found[n - 1]?.map fun last =>
        encodePageToken clock ⟨last.createTime,last.sessionId⟩⟩ := by
  intro found
  have hsessions : (found.take (n + 1)).take n = found.take n := by
    rw [List.take_take]
    congr 1
    omega
  have hlast : (found.take (n + 1))[n - 1]? = found[n - 1]? := by
    rw [List.getElem?_take]
    exact if_pos (by omega)
  have hlength : n < (found.take (n + 1)).length ↔ n < found.length := by
    rw [List.length_take]
    omega
  show ListSessionsResult.mk (((found.take (n + 1)).take n).map _)
    (if n < (found.take (n + 1)).length then (found.take (n + 1))[n - 1]?.map _ else none) = _
  rw [hsessions,hlast]
  congr 1
  by_cases hlt : n < found.length
  · rw [if_pos (hlength.mpr hlt),List.getElem?_eq_getElem hlt]
    rfl
  · rw [if_neg (fun h => hlt (hlength.mp h)),List.getElem?_eq_none (by omega)]
    rfl

private theorem listSessions_page (c : Collection Time) {parent : Except String TemplateName}
    {name : TemplateName} (hparent : parseParent parent = .ok name)
    (size : {n : Int // n ≤ maxListSessionsPageSize}) {token : Option PageToken}
    {cursor : Option (ListPageCursor Time)}
    (htoken : token.mapM (decodePageToken clock) = .ok cursor) :
    let found := Keyset.behind SessionDocument.key c.docs
      (cursor.map (ListPageCursor.key clock))
    listSessions clock c { parent := parent, pageSize := size.1, pageToken := token } =
      .ok ((found.take (sizeOf size)).map fun d => sessionToProto clock d.toDomain,
        found[sizeOf size]?.bind fun _ => found[sizeOf size - 1]?.map fun last =>
          encodePageToken clock ⟨last.createTime,last.sessionId⟩) := by
  intro found
  have hmax : ¬maxListSessionsPageSize < sizeOf size := Nat.not_lt.mpr (sizeOf_bounds size).2
  have hunfold : listSessions clock c { parent := parent, pageSize := size.1, pageToken := token } =
      if maxListSessionsPageSize < sizeOf size then
        .error ⟨.invalidArgument,"page_size exceeds maximum of 1000"⟩
      else .ok ((c.list clock (sizeOf size) cursor).sessions.map (sessionToProto clock),
        (c.list clock (sizeOf size) cursor).nextPageToken) := by
    unfold listSessions
    simp only [hparent,htoken]
    rfl
  rw [hunfold,if_neg hmax,list_eq c (sizeOf_bounds size).1 cursor]
  simp only [List.map_map]
  rfl

private theorem mem_of_mem_behind {cursor : Option (Time ×ₗ String)} {d : SessionDocument Time}
    (h : d ∈ Keyset.behind SessionDocument.key c.docs cursor) : d ∈ c.docs := by
  cases cursor with
  | none => exact (Keyset.perm_descending _).mem_iff.mp h
  | some k => exact List.mem_of_mem_filter ((Keyset.perm_descending _).mem_iff.mp h)

private theorem Holds.walk_eq (h : Holds clock c m) (hkeys : (c.docs.map SessionDocument.key).Nodup)
    {parent : Except String TemplateName} {name : TemplateName}
    (hparent : parseParent parent = .ok name)
    (pageSizes : Nat → {n : Int // n ≤ maxListSessionsPageSize}) (fuel i : Nat)
    (token : Option PageToken) (cursor : Option (ListPageCursor Time))
    (htoken : token.mapM (decodePageToken clock) = .ok cursor)
    (hfuel : (Keyset.behind SessionDocument.key c.docs
      (cursor.map (ListPageCursor.key clock))).length < fuel) :
    walk clock c parent (fun i => (pageSizes i).1) fuel i token =
      some (.ok ((Keyset.behind SessionDocument.key c.docs
        (cursor.map (ListPageCursor.key clock))).map fun d =>
          sessionToProto clock d.toDomain)) := by
  induction fuel generalizing i token cursor with
  | zero => exact absurd hfuel (Nat.not_lt_zero _)
  | succ fuel ih =>
    let found := Keyset.behind SessionDocument.key c.docs (cursor.map (ListPageCursor.key clock))
    have hpage := listSessions_page c hparent (pageSizes i) htoken
    have hpos := (sizeOf_bounds (pageSizes i)).1
    rw [walk]
    simp only [hpage]
    by_cases hmore : sizeOf (pageSizes i) < found.length
    · have hlt : sizeOf (pageSizes i) - 1 < found.length := by omega
      let last := found[sizeOf (pageSizes i) - 1]
      have hlast : found[sizeOf (pageSizes i) - 1]? = some last := List.getElem?_eq_getElem hlt
      have hmem : last ∈ c.docs := mem_of_mem_behind (List.getElem_mem hlt)
      let next : ListPageCursor Time := ⟨last.createTime,last.sessionId⟩
      have hnext : (found[sizeOf (pageSizes i)]?.bind fun _ =>
          found[sizeOf (pageSizes i) - 1]?.map fun last =>
            encodePageToken clock ⟨last.createTime,last.sessionId⟩) =
          some (encodePageToken clock next) := by
        rw [List.getElem?_eq_getElem hmore,hlast]
        rfl
      have hdecode : (some (encodePageToken clock next)).mapM (decodePageToken clock) =
          .ok (some next) := by
        have hround := decode_encode clock next (h.ids last hmem)
        simp [hround]
      have hkey : next.key clock = last.key := by
        simp [ListPageCursor.key,SessionDocument.key,next,h.millis last hmem]
      have hrest : Keyset.behind SessionDocument.key c.docs
          ((some next).map (ListPageCursor.key clock)) = found.drop (sizeOf (pageSizes i)) := by
        have hbehind := Keyset.behind_page hkeys _ hlast
        rw [Option.map_some,hkey,hbehind]
        congr 1
        omega
      have hfuel' : found.length < fuel + 1 := hfuel
      have hwalk := ih (i + 1) _ (some next) hdecode (by
        rw [hrest,List.length_drop]
        omega)
      rw [hrest] at hwalk
      rw [hnext]
      simp only [hwalk]
      have hall : ((found.take (sizeOf (pageSizes i))).map fun d => sessionToProto clock d.toDomain) ++
          (found.drop (sizeOf (pageSizes i))).map (fun d => sessionToProto clock d.toDomain) =
          found.map fun d => sessionToProto clock d.toDomain := by
        rw [← List.map_append,List.take_append_drop]
      exact congrArg (fun all => some (Except.ok all)) hall
    · have hnone : found[sizeOf (pageSizes i)]? = none := List.getElem?_eq_none (by omega)
      have htake : found.take (sizeOf (pageSizes i)) = found := List.take_of_length_le (by omega)
      rw [hnone,htake]
      rfl

private theorem Holds.lists (h : Holds clock c m) {template : String}
    (hsame : ∀ d ∈ c.docs, d.template = template) :
    ∃ entries, ListsNewestFirst m template entries ∧
      ((Keyset.descending SessionDocument.key c.docs).map fun d =>
        sessionToProto clock d.toDomain) = entries.map (entryToProto clock template) := by
  let found := Keyset.descending SessionDocument.key c.docs
  have hmem : ∀ d, d ∈ found ↔ d ∈ c.docs := fun d => (Keyset.perm_descending _).mem_iff
  refine ⟨found.map fun d => (d.sessionId,d.createTime),⟨?_,fun sessionId t => ?_,?_⟩,?_⟩
  · have hnames : (found.map SessionDocument.name).Nodup :=
      (((Keyset.perm_descending _).map _).nodup_iff).mpr h.names
    rw [List.map_map]
    refine List.Nodup.of_map (fun sessionId => (⟨template,sessionId⟩ : SessionName)) ?_
    rw [List.map_map]
    have hsame' : (found.map fun d => (⟨template,d.sessionId⟩ : SessionName)) =
        found.map SessionDocument.name :=
      List.map_congr_left fun d hd => by rw [SessionDocument.name,hsame d ((hmem d).mp hd)]
    exact hsame' ▸ hnames
  · rw [h.entries,List.mem_map]
    constructor
    · rintro ⟨d,hd,he⟩
      cases he
      refine ⟨d,(hmem d).mp hd,?_,rfl⟩
      rw [SessionDocument.name,hsame d ((hmem d).mp hd)]
    · rintro ⟨d,hd,hname,rfl⟩
      have hid : d.sessionId = sessionId := congrArg SessionName.sessionId hname
      exact ⟨d,(hmem d).mpr hd,by rw [hid]⟩
  · rw [List.pairwise_map]
    refine (Keyset.descending_pairwise c.docs).imp fun hle => ?_
    exact Prod.Lex.monotone_fst _ _ hle
  · rw [List.map_map]
    refine List.map_congr_left fun d hd => ?_
    simp [entryToProto,SessionDocument.toDomain,hsame d ((hmem d).mp hd)]

/-- A request that keeps the templates apart is answered as by the map. -/
theorem Holds.step (h : Holds clock c m) (r : Request Time) (hr : separate c r = true) :
    ∃ m', MapStep clock m r (serve clock c r).1 m' ∧ Holds clock (serve clock c r).2 m' := by
  cases r with
  | create req =>
    cases haccepted : admitCreate req with
    | error status => exact ⟨m,by simp [MapStep,serve,createSession,haccepted,answerSession],by
        simpa [serve,createSession,haccepted] using h⟩
    | ok s =>
      simp only [separate,haccepted,List.all_eq_true] at hr
      have hname : ∀ d ∈ c.docs, ¬(d.template = s.template ∧ d.sessionId = s.sessionId) := by
        rintro d hd ⟨htemplate,hid⟩
        have hnot := hr d hd
        simp [htemplate,hid] at hnot
      obtain ⟨hok,hnew,hholds⟩ := h.create (admitCreate_sessionId haccepted) hname
      rcases hcreate : c.create clock s with ⟨result,c'⟩
      rw [hcreate] at hok hholds
      obtain rfl : result = .ok s := hok
      refine ⟨Function.update m ⟨s.template,s.sessionId⟩ (some (clock.toMillis s.createTime)),
        ?_,?_⟩
      · simp [MapStep,serve,createSession,haccepted,hcreate,answerSession,hnew]
      · simpa [serve,createSession,haccepted,hcreate] using hholds
  | get name =>
    refine ⟨m,⟨rfl,?_⟩,h⟩
    cases hname : parseName name with
    | error status => simp [serve,getSession,hname,answerSession]
    | ok n =>
      simp only [separate,hname,Option.all_eq_true] at hr
      obtain ⟨hfound,hmissing⟩ := h.findOne fun d hd => by simpa using hr d hd
      cases hfind : c.findOne n.sessionId with
      | none =>
        simp [serve,getSession,Collection.get,hname,hfind,hmissing hfind,answerSession]
      | some d =>
        obtain ⟨-,hd,hm⟩ := hfound d hfind
        have hproto : d.toDomain = ⟨n.templateId,n.sessionId,d.createTime⟩ := by
          rw [← hd]
          rfl
        simp [serve,getSession,Collection.get,hname,hfind,hm,answerSession,entryToProto,
          hproto]
  | delete name =>
    cases hname : parseName name with
    | error status =>
      exact ⟨m,by simp [MapStep,serve,deleteSession,hname],by
        simpa [serve,deleteSession,hname] using h⟩
    | ok n =>
      simp only [separate,hname,Option.all_eq_true] at hr
      obtain ⟨hfound,hmissing⟩ := h.findOne fun d hd => by simpa using hr d hd
      cases hfind : c.findOne n.sessionId with
      | none =>
        have hnone : c.deleteOne n.sessionId = none := by
          have hany : (c.docs.any fun d => d.sessionId = n.sessionId) = false := by
            rw [List.any_eq_false]
            exact fun d hd => List.find?_eq_none.mp hfind d hd
          simp [Collection.deleteOne,hany]
        have hm := hmissing hfind
        exact ⟨m,by simp [MapStep,serve,deleteSession,Collection.delete,hname,hnone,hm],by
          simpa [serve,deleteSession,Collection.delete,hname,hnone] using h⟩
      | some d =>
        obtain ⟨-,hd,hm⟩ := hfound d hfind
        obtain ⟨c',hdelete,hholds⟩ := h.delete hfind hd
        exact ⟨Function.update m n none,by
          simp [MapStep,serve,deleteSession,Collection.delete,hname,hdelete,hm],by
          simpa [serve,deleteSession,Collection.delete,hname,hdelete] using hholds⟩
  | walk parent pageSizes =>
    cases hparent : parseParent parent with
    | error status =>
      have hlist : listSessions clock c { parent := parent, pageSize := (pageSizes 0).1 } =
          .error status := by
        unfold listSessions
        simp only [hparent]
      have hwalk : walk clock c parent (fun i => (pageSizes i).1) (c.docs.length + 1) 0
          none = some (.error status) := by
        rw [walk,hlist]
      refine ⟨m,⟨rfl,?_⟩,?_⟩
      · simp [serve,hwalk,hparent]
      · simpa [serve,hwalk] using h
    | ok name =>
      simp only [separate,hparent,List.all_eq_true] at hr
      have hsame : ∀ d ∈ c.docs, d.template = name.templateId := by
        intro d hd
        simpa using hr d hd
      obtain ⟨entries,hlists,hentries⟩ := h.lists hsame
      have hfuel : (Keyset.behind SessionDocument.key c.docs
          ((none : Option (ListPageCursor Time)).map (ListPageCursor.key clock))).length <
          c.docs.length + 1 := by
        have hperm : (Keyset.descending SessionDocument.key c.docs).Perm c.docs :=
          Keyset.perm_descending c.docs
        exact Nat.lt_succ_of_le (Nat.le_of_eq hperm.length_eq)
      have hwalk := h.walk_eq (h.keys hsame) hparent pageSizes (c.docs.length + 1) 0 none none rfl hfuel
      have hall : walk clock c parent (fun i => (pageSizes i).1) (c.docs.length + 1) 0 none =
          some (.ok (entries.map (entryToProto clock name.templateId))) := by
        rw [hwalk]
        exact congrArg (fun all => some (Except.ok all)) hentries
      refine ⟨m,⟨rfl,?_⟩,?_⟩
      · simp only [hparent,serve,hall]
        exact ⟨entries,hlists,rfl⟩
      · simpa [serve,hall] using h

omit [LinearOrder Time] in
private theorem holds_new (clock : Clock Time) :
    Holds clock newSessionRepository fun _ => none where
  indexes := by simp [newSessionRepository]
  names := List.nodup_nil
  entries := by simp [newSessionRepository]
  ids := by simp [newSessionRepository]
  millis := by simp [newSessionRepository]

private theorem Holds.run (h : Holds clock c m) (requests : List (Request Time))
    (hrun : separateRun clock c requests = true) :
    Follows clock m (requests.zip (answers clock c requests)) := by
  induction requests generalizing c m with
  | nil => trivial
  | cons r rest ih =>
    obtain ⟨hr,hrest⟩ := Bool.and_eq_true_iff.mp hrun
    obtain ⟨m',hstep,hholds⟩ := h.step r hr
    exact ⟨m',hstep,ih hholds hrest⟩

end steps

/-- A sequence of requests that keeps the templates apart is answered as by a map from the names
to the create times. -/
theorem session_service_is_a_map {Time : Type} [LinearOrder Time] (clock : Clock Time)
    (requests : List (Request Time))
    (h : separateRun clock newSessionRepository requests = true) :
    Follows clock (fun _ => none)
      (requests.zip (answers clock newSessionRepository requests)) :=
  (holds_new clock).run requests h

/-! ## Two sequences -/

/-- Two instants, a millisecond apart. -/
def twoInstants : Clock Bool where
  isZero _ := false
  toMillis t := t
  toMillis_toMillis _ := rfl
  format t := if t then "2024-01-01T00:00:00.001Z" else "2024-01-01T00:00:00Z"
  parse s :=
    if s = "2024-01-01T00:00:00.001Z" then .ok true
    else if s = "2024-01-01T00:00:00Z" then .ok false
    else .error "cannot parse"
  parse_format := by decide
  format_ne := by decide

def saolei : Except String TemplateName :=
  .ok ⟨"saolei"⟩

def createOf (sessionId : String) (now : Bool) : Request Bool :=
  .create { parent := saolei, sessionId := sessionId, generated := .error "not asked", now := now }

/-- Two sessions, a walk with pages of one session, and a deletion. -/
def separateRequests : List (Request Bool) :=
  [createOf "a" false,createOf "b" true,.walk saolei fun _ => ⟨1,by decide⟩,
    .delete (.ok ⟨"saolei","a"⟩),.get (.ok ⟨"saolei","a"⟩)]

theorem session_service_is_a_map_demo :
    Follows twoInstants (fun _ => none)
      (separateRequests.zip (answers twoInstants newSessionRepository separateRequests)) ∧
    answers twoInstants newSessionRepository separateRequests =
      [.session ⟨⟨"saolei","a"⟩,some false⟩,.session ⟨⟨"saolei","b"⟩,some true⟩,
        .sessions [⟨⟨"saolei","b"⟩,some true⟩,⟨⟨"saolei","a"⟩,some false⟩],.deleted,
        .failed ⟨.notFound,"session not found"⟩] :=
  ⟨session_service_is_a_map twoInstants separateRequests (by decide),by decide⟩

/-- The same name twice. -/
theorem second_create_succeeds : ¬∀ requests : List (Request Bool),
    Follows twoInstants (fun _ => none)
      (requests.zip (answers twoInstants newSessionRepository requests)) := by
  intro h
  obtain ⟨m,⟨-,rfl⟩,m',hsecond,-⟩ := h [createOf "a" false,createOf "a" true]
  exact absurd hsecond.1 (by decide)

end Dominion.Sessions
