import Dominion.Framework.Text

/-! # Labels -/
namespace Dominion.Deploy.K8s

open Dominion.Framework

/-- A map of labels, as its entries. -/
abbrev Labels := List (String × String)

def managedByLabelKey : String := "app.kubernetes.io/managed-by"

def appLabelKey : String := "app.kubernetes.io/name"

def serviceLabelKey : String := "app.kubernetes.io/component"

def dominionEnvironmentLabelKey : String := "dominion.io/environment"

structure LabelSet where
  app : String := ""
  service : String := ""
  dominionEnvironment : String := ""
  managedBy : String := ""

def withApp (name : String) (set : LabelSet) : LabelSet :=
  { set with app := Text.trimSpace name }

def withService (name : String) (set : LabelSet) : LabelSet :=
  { set with service := Text.trimSpace name }

def withDominionEnvironment (name : String) (set : LabelSet) : LabelSet :=
  { set with dominionEnvironment := Text.trimSpace name }

def withManagedBy (name : String) (set : LabelSet) : LabelSet :=
  { set with managedBy := Text.trimSpace name }

def buildLabels (options : List (LabelSet → LabelSet)) : Labels :=
  let set := options.foldl (fun set option => option set) {}
  [(appLabelKey,set.app),(serviceLabelKey,set.service),
    (dominionEnvironmentLabelKey,set.dominionEnvironment),
    (managedByLabelKey,set.managedBy)].filter fun label => label.2 ≠ ""

def hasAllLabels (current want : Labels) : Bool :=
  want.all fun label => (current.lookup label.1).getD "" == label.2

def isASCIIAlphaNumeric (c : Char) : Bool :=
  (decide ('a' ≤ c) && decide (c ≤ 'z')) || (decide ('A' ≤ c) && decide (c ≤ 'Z')) ||
    (decide ('0' ≤ c) && decide (c ≤ '9'))

def isValidLabelValueChar (c : Char) : Bool :=
  isASCIIAlphaNumeric c || c == '-' || c == '_' || c == '.'

def isValidLabelValue (value : String) : Bool :=
  value.toList.all isValidLabelValueChar && value.toList.head?.all isASCIIAlphaNumeric &&
    value.toList.getLast?.all isASCIIAlphaNumeric

/-- The labels that the selector of a list call names. -/
def buildLabelSelector (matchLabels : Labels) : Labels :=
  matchLabels.filter fun label => isValidLabelValue label.2

/-- A selector of equality requirements matches the labels. -/
def selects (selector current : Labels) : Bool :=
  selector.all fun label => current.lookup label.1 == some label.2

/-- The selector of a list call only leaves out what `hasAllLabels` would. -/
theorem selects_of_hasAllLabels {current want : Labels} (hwant : ∀ label ∈ want, label.2 ≠ "")
    (h : hasAllLabels current want = true) : selects (buildLabelSelector want) current = true := by
  unfold hasAllLabels at h
  unfold selects buildLabelSelector
  rw [List.all_eq_true] at h ⊢
  intro label hlabel
  have hmem := (List.mem_filter.mp hlabel).1
  have hvalue := h label hmem
  cases hcurrent : current.lookup label.1 with
  | none =>
    rw [hcurrent] at hvalue
    have hempty : "" = label.2 := by simpa using hvalue
    exact absurd hempty.symm (hwant label hmem)
  | some value =>
    rw [hcurrent] at hvalue
    simpa using hvalue

theorem buildLabels_ne_empty (options : List (LabelSet → LabelSet)) :
    ∀ label ∈ buildLabels options, label.2 ≠ "" := by
  intro label hlabel
  unfold buildLabels at hlabel
  simpa using (List.mem_filter.mp hlabel).2

end Dominion.Deploy.K8s
