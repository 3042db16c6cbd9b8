import TagTemplate.Main
import TagTemplate.Tag.Sample
import TagTemplate.Proofs.Lexeme
import TagTemplate.Proofs.Part
import TagTemplate.Proofs.Scan
import TagTemplate.Proofs.Coverage
import TagTemplate.Proofs.Shape
import TagTemplate.Proofs.Cursor
import TagTemplate.Proofs.Recognition
import TagTemplate.Proofs.Grammar
import TagTemplate.Proofs.Builtin
import TagTemplate.Proofs.Acceptance
import TagTemplate.Proofs.Meaning
import TagTemplate.Proofs.Rendering
import TagTemplate.Proofs.Flaw
import TagTemplate.Proofs.Refusal
import TagTemplate.Proofs.Failure
import TagTemplate.Proofs.Blame
import TagTemplate.Proofs.Composition
import TagTemplate.Proofs.Printing
import TagTemplate.Proofs.Extension
import TagTemplate.Proofs.Erasure
import TagTemplate.Proofs.Demand
import TagTemplate.Proofs.Ending
import TagTemplate.Proofs.Execution
import TagTemplate.Proofs.Location
import TagTemplate.Proofs.Restart
import TagTemplate.Proofs.Segment
import TagTemplate.Proofs.Stray
import TagTemplate.Proofs.Family
import TagTemplate.Proofs.Region
import TagTemplate.Proofs.Progress
import TagTemplate.Proofs.Marker
import TagTemplate.Proofs.Truncation
import TagTemplate.Proofs.Reuse
import TagTemplate.Proofs.Filler
import TagTemplate.Proofs.Additivity
import TagTemplate.Proofs.Registration
import TagTemplate.Proofs.Mapping
import TagTemplate.Proofs.Document
import TagTemplate.Proofs.Loading
import TagTemplate.Proofs.Section
import TagTemplate.Proofs.Shown
import TagTemplate.Proofs.Check
import TagTemplate.Proofs.Omission
import TagTemplate.Proofs.Closing
import TagTemplate.Proofs.Overlay
import TagTemplate.Proofs.Appending
import TagTemplate.Proofs.Passage
import TagTemplate.Proofs.Faithful
