import DataGrid.Merge.Collection

/-! The phases of a merge. A move makes room and renames. In a link, everything up to the commands
on the host leaves the catalog as it is; then the replica is registered and the copy is
removed. A batch is the merges of its objects one after the other. -/
namespace DataGrid.Merge

def rename (obj master : String) : Attempt Outcome := do
  ask .rename obj (.move obj master)
  return .moved master

theorem move_eq (rules : Rules) (obj master : String) :
    move rules obj master = makeRoom rules master >>= fun _ => rename obj master := rfl

/-- The copy's primary replica and the master's, and the place that the file of the copy has
been linked to. -/
def prepare (obj master : String) : Attempt (Replica × Replica × String) := do
  let copy ← ask .objectInfo obj (.primary obj)
  let kept ← ask .objectInfo master (.primary master)
  let physical ← known (physicalPath copy.resource master)
  let (parent, _) ← known (Directory.parentAndName physical)
  command .remoteMkdir ⟨copy.resource.address, .mkdir parent true⟩
  command .remoteLink ⟨copy.resource.address, .link copy.file physical⟩
  return (copy, kept, physical)

def register (obj master : String) (copy kept : Replica) (physical : String) :
    Attempt Outcome := do
  ask .registerReplica physical (.attach kept { copy with file := physical, path := master })
  ask .unlink obj (.remove obj true)
  return .linked master physical

theorem link_eq (obj master : String) :
    link obj master = prepare obj master >>= fun (copy, kept, physical) =>
      register obj master copy kept physical := by
  simp only [prepare, bind_assoc, pure_bind]
  rfl

/-- Merges one path after the other and keeps all results. -/
def results (rules : Rules) (current coll : String) :
    List String → Dialogue interface (List (String × Except Error Outcome))
  | [] => .done []
  | p :: ps => do
    let r ← (object rules p current coll).run
    let rest ← results rules current coll ps
    return (p, r) :: rest

/-- The loop over a batch records these results. -/
theorem each_eq_results (rules : Rules) (current coll : String) (ps : List String)
    (report : Report) :
    each rules current coll ps report = do
      let outcomes ← results rules current coll ps
      return outcomes.foldl (fun report out => report.record out.1 out.2) report := by
  induction ps generalizing report with
  | nil => rfl
  | cons p ps ih =>
    simp only [each, results, bind_assoc, pure_bind]
    congr 1
    funext r
    exact ih (report.record p r)

end DataGrid.Merge
