import ContainerInit.Config.Basic
import ContainerInit.Proofs.Config.ByName
import ContainerInit.Proofs.Config.Entry

/-! # Documents before their entries are read

An outline of a document has the values under the names of the services.  Reading the sections of a document comes
to reading its outline first, and each of the values as an entry after that.

The program does both in one pass: while it goes through a document, it takes each node for a value and the value for
an entry.  A visit of a document can fail for two reasons, the document and what is made of it, and it is the same
failure.  Therefore what is made of it can be put off until the visit is over (`liftM_bind_comm`), and a pass in two
steps can be taken for two passes (`mapM_bind_liftM`).  The rest of the first section carries this through the parts of
which the reading is put together.

In the second section the reading of the sections is rewritten in this way from the inside out, to `sections_eq`. -/

namespace ContainerInit.Config

open Yaml

section Passes

variable {α β γ : Type}

/-- What cannot fail over the document can be put off. -/
theorem liftM_bind_comm (o : Option α) (x : Visit β) (k : α → β → Visit γ) :
    (do let a ← liftM o; let b ← x; k a b) = (do let b ← x; let a ← liftM o; k a b) := by
  funext d n
  cases o with
  | some a => rfl
  | none =>
    change none = (x d n >>= fun _ => none)
    cases x d n <;> rfl

/-- Two steps that do not look at the document are one such step. -/
theorem liftM_bind (o : Option α) (f : α → Option β) :
    (liftM (o >>= f) : Visit β) = (do let a ← liftM o; liftM (f a)) := by
  cases o <;> rfl

/-- Elements that are read in two steps are read in two passes. -/
theorem mapM_bind_liftM (f : α → Visit β) (g : β → Option γ) (xs : List α) :
    (xs.mapM fun x => do let b ← f x; liftM (g b)) = (do let bs ← xs.mapM f; liftM (bs.mapM g)) := by
  induction xs with
  | nil => rfl
  | cons x xs ih =>
    have hcons (b : β) (bs : List β) : (liftM ((b :: bs).mapM g) : Visit (List γ)) =
        (do let c ← liftM (g b); let cs ← liftM (bs.mapM g); return c :: cs) := by
      rw [List.mapM_cons, liftM_bind]
      exact bind_congr fun c => liftM_bind _ _
    calc ((x :: xs).mapM fun x => do let b ← f x; liftM (g b))
      _ = (do let b ← f x; let c ← liftM (g b); let bs ← xs.mapM f; let cs ← liftM (bs.mapM g); return c :: cs) := by
        simp only [List.mapM_cons, ih, bind_assoc]
      _ = (do let b ← f x; let bs ← xs.mapM f; let c ← liftM (g b); let cs ← liftM (bs.mapM g); return c :: cs) :=
        bind_congr fun b => liftM_bind_comm _ _ _
      _ = (do let bs ← (x :: xs).mapM f; liftM (bs.mapM g)) := by
        rw [List.mapM_cons]
        simp only [bind_assoc, pure_bind, hcons]

/-- An optional node is read in two steps like any other. -/
theorem optional_bind_liftM (f : Node → Visit α) (g : α → Option β) :
    (Visit.optional fun node => do let a ← f node; liftM (g a)) =
      fun node => (do let o ← Visit.optional f node; liftM (o.mapM g)) := by
  funext node
  unfold Visit.optional
  simp only [bind_assoc]
  refine bind_congr fun node => bind_congr fun isNull => ?_
  split
  · rfl
  · simp only [bind_assoc, pure_bind]
    refine bind_congr fun a => ?_
    change _ = (liftM (some <$> g a) : Visit (Option β))
    cases g a <;> rfl

/-- So is the field under a key. -/
theorem field_bind_liftM (fields : List (String × Node)) (key : String) (f : Node → Visit (Option α)) (g : α → Option β) :
    (Sections.field fields key fun node => do let o ← f node; liftM (o.mapM g)) =
      (do let o ← Sections.field fields key f; liftM (o.mapM g)) := by
  unfold Sections.field
  split <;> rfl

/-- And so is a document, where the second step comes after the visit is over. -/
theorem document_read_bind_liftM (d : Document) (x : Visit α) (f : α → Option β) :
    d.read (do let a ← x; liftM (f a)) = (d.read x).bind f := by
  change ((x.run d).run 0 >>= fun p => (liftM (f p.1) : Visit β) d p.2).map Prod.fst =
    ((x.run d).run 0).map Prod.fst >>= f
  cases (x.run d).run 0 with
  | none => rfl
  | some p =>
    change ((liftM (f p.1) : Visit β) d p.2).map Prod.fst = f p.1
    cases f p.1 <;> rfl

end Passes

/-- The sections of a document, with the values that entries are to be read from. -/
structure Outline where
  settings : Settings.Layer := {}
  services : Option (List (String × Value)) := none

namespace Outline

def readServices (node : Node) : Visit (List (String × Value)) := do
  (← Sections.fields node).mapM fun (name, node) => return (name, ← Visit.value node)

def read (node : Node) : Visit Outline := do
  let fields ← Sections.fields node
  return { settings := (← Sections.field fields "settings" (Visit.optional Sections.readSettings)).getD {}
           services := ← Sections.field fields "services" (Visit.optional readServices) }

def ofDocument? (d : Document) : Option Outline :=
  match d.root with
  | none => some {}
  | some root => d.read (read root)

def ofText? (content : String) : Option Outline := (Document.ofText? content).bind ofDocument?

/-- The entry that an entry of the document is read as. -/
def entry? (e : String × Value) : Option (String × Entry) := (Entry.ofValue? e.2).map (e.1, ·)

def sections? (o : Outline) : Option Sections := do
  return { settings := o.settings, services := ← o.services.mapM fun written => written.mapM entry? }

/-- The entries of the services are made from values that have been read before. -/
theorem readServices_bind (node : Node) :
    Sections.readServices node = (do let written ← readServices node; liftM (written.mapM entry?)) := by
  unfold Sections.readServices readServices
  rw [bind_assoc]
  refine bind_congr fun fields => ?_
  rw [← mapM_bind_liftM]
  refine congrArg (fields.mapM ·) (funext fun ⟨name, node⟩ => ?_)
  unfold Sections.readEntry entry?
  simp only [bind_assoc, pure_bind]
  refine bind_congr fun v => ?_
  cases Entry.ofValue? v <;> rfl

/-- The sections are made from the outline of the same node. -/
theorem read_bind (node : Node) : Sections.read node = (do let o ← read node; liftM o.sections?) := by
  have hservices : Sections.readServices =
      fun node => (do let written ← readServices node; liftM (written.mapM entry?)) := funext readServices_bind
  unfold Sections.read read
  simp only [bind_assoc, pure_bind]
  refine bind_congr fun fields => bind_congr fun settings => ?_
  rw [hservices, optional_bind_liftM, field_bind_liftM, bind_assoc]
  refine bind_congr fun written => ?_
  unfold sections?
  rw [liftM_bind]
  rfl

/-- The sections of a text are made from its outline. -/
theorem sections_eq (content : String) :
    (Document.ofText? content).bind Sections.ofDocument? = (ofText? content).bind sections? := by
  unfold ofText?
  rw [Option.bind_assoc]
  refine congrArg (Option.bind _) (funext fun d => ?_)
  unfold Sections.ofDocument? ofDocument?
  cases d.root with
  | none => rfl
  | some root =>
    dsimp only
    rw [read_bind, document_read_bind_liftM]

end Outline

end ContainerInit.Config
