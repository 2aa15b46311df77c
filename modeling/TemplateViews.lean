import TemplateViews.Main
import TemplateViews.Proofs.Build.CommandLine
import TemplateViews.Proofs.Build.Leftovers
import TemplateViews.Proofs.Build.LineWise
import TemplateViews.Proofs.Build.Positions
import TemplateViews.Proofs.Build.Verdict
import TemplateViews.Proofs.Command.Runs
import TemplateViews.Proofs.Compiler.Building
import TemplateViews.Proofs.Compiler.Concurrent
import TemplateViews.Proofs.Compiler.StandardModule
import TemplateViews.Proofs.Compiler.Unresolved
import TemplateViews.Proofs.Config.Anchoring
import TemplateViews.Proofs.Config.Relocation
import TemplateViews.Proofs.Config.Rendering
import TemplateViews.Proofs.Files.Purging
import TemplateViews.Proofs.Links.Order
import TemplateViews.Proofs.Links.Representation
import TemplateViews.Proofs.Markup.Columns
import TemplateViews.Proofs.Source.Composition
import TemplateViews.Proofs.Source.Declarations
import TemplateViews.Proofs.Source.ViewPath
import TemplateViews.Proofs.Template.Attempts
import TemplateViews.Proofs.Template.First
import TemplateViews.Proofs.Template.Stream
import TemplateViews.Proofs.Template.Updates
import TemplateViews.Proofs.Types.Calls
import TemplateViews.Proofs.Types.Growth
import TemplateViews.Proofs.Types.RoundTrip
import TemplateViews.Proofs.Types.Search
import TemplateViews.Proofs.View.Exports
import TemplateViews.Proofs.View.Loading
