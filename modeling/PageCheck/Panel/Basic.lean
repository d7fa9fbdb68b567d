import PageCheck.Report.Entry

/-! # The results panel

Where a run leaves its entries. The panel also remembers how often it was brought to view, and
whether it took the focus each time.
-/

namespace PageCheck

structure Panel where
  /-- What the panel shows, from top to bottom. -/
  entries : List Entry
  /-- For each time the panel was brought to view, oldest first, whether it took the focus. -/
  opens : List Bool
  deriving DecidableEq, Repr

namespace Panel

def empty : Panel :=
  ⟨[], []⟩

def reveal (panel : Panel) (focus : Bool) : Panel :=
  { panel with opens := panel.opens ++ [focus] }

def clear (panel : Panel) : Panel :=
  { panel with entries := [] }

/-- Add an entry below the others. -/
def add (panel : Panel) (entry : Entry) : Panel :=
  { panel with entries := panel.entries ++ [entry] }

def replace (panel : Panel) (entries : List Entry) : Panel :=
  { panel with entries := entries }

@[simp] theorem entries_reveal (panel : Panel) (focus : Bool) :
    (panel.reveal focus).entries = panel.entries := rfl

@[simp] theorem opens_reveal (panel : Panel) (focus : Bool) :
    (panel.reveal focus).opens = panel.opens ++ [focus] := rfl

@[simp] theorem entries_clear (panel : Panel) : panel.clear.entries = [] := rfl

@[simp] theorem opens_clear (panel : Panel) : panel.clear.opens = panel.opens := rfl

@[simp] theorem entries_add (panel : Panel) (entry : Entry) :
    (panel.add entry).entries = panel.entries ++ [entry] := rfl

@[simp] theorem opens_add (panel : Panel) (entry : Entry) :
    (panel.add entry).opens = panel.opens := rfl

@[simp] theorem entries_replace (panel : Panel) (entries : List Entry) :
    (panel.replace entries).entries = entries := rfl

@[simp] theorem opens_replace (panel : Panel) (entries : List Entry) :
    (panel.replace entries).opens = panel.opens := rfl

end Panel

end PageCheck
