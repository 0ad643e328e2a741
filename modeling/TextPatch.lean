import TextPatch.Host.OnTree
import TextPatch.Main
import TextPatch.Patch.Reading
import TextPatch.Proofs.Search.Scans
import TextPatch.Proofs.Search.Collection
import TextPatch.Proofs.Edits.Words
import TextPatch.Proofs.Edits.Patterns
import TextPatch.Proofs.Edits.Optional
import TextPatch.Proofs.Text.Positions
import TextPatch.Proofs.Text.Correspondence
import TextPatch.Proofs.SourceMap.Identifiers
import TextPatch.Proofs.SourceMap.Translation
import TextPatch.Proofs.Bundle.Lookups
import TextPatch.Proofs.Extensions.Backups
import TextPatch.Proofs.Extensions.Pristine
import TextPatch.Proofs.Extensions.Undo
import TextPatch.Proofs.Extensions.AppliedOnce
import TextPatch.Proofs.Bundle.Outcomes
import TextPatch.Proofs.Bundle.Failures
import TextPatch.Proofs.Bundle.History
import TextPatch.Proofs.Bundle.Unmapped
import TextPatch.Proofs.Bundle.DryRun
import TextPatch.Proofs.Extensions.Merging
import TextPatch.Proofs.Files.Guarded
import TextPatch.Proofs.Extensions.Confinement
import TextPatch.Proofs.Patch.Admitted
import TextPatch.Proofs.Patch.Identity
import TextPatch.Proofs.Extensions.Accounting
import TextPatch.Proofs.Patch.Comments
import TextPatch.Proofs.Extensions.Rereading
import TextPatch.Proofs.Extensions.Splitting
import TextPatch.Proofs.Extensions.Finding
import TextPatch.Proofs.Edits.Insertions
import TextPatch.Proofs.SourceMap.Remembering
import TextPatch.Proofs.Extensions.Unpatching
import TextPatch.Proofs.Search.Grammar
import TextPatch.Proofs.Extensions.AllOrNothing
import TextPatch.Proofs.Edits.Nested
import TextPatch.Proofs.Extensions.Restoring
import TextPatch.Proofs.Files.Normalised
import TextPatch.Proofs.Edits.Expansion
import TextPatch.Proofs.Bundle.Inspecting
import TextPatch.Proofs.Patch.Forms
import TextPatch.Proofs.Edits.Shift
import TextPatch.Proofs.Extensions.Newest
