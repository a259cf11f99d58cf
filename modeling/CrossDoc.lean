import CrossDoc.SortedMap
import CrossDoc.Text.Basic
import CrossDoc.Text.LowerCase
import CrossDoc.Text.Quoted
import CrossDoc.Text.Glob
import CrossDoc.Json.Binary64
import CrossDoc.Json.Basic
import CrossDoc.Json.Printer
import CrossDoc.Json.Decoder
import CrossDoc.Json.Record
import CrossDoc.Json.Token
import CrossDoc.Json.Reader
import CrossDoc.Page
import CrossDoc.Node.Basic
import CrossDoc.Node.Walk
import CrossDoc.Node.Record
import CrossDoc.Target
import CrossDoc.Report
import CrossDoc.External.Basic
import CrossDoc.Settings
import CrossDoc.Target.PageTargets
import CrossDoc.Target.Enumeration
import CrossDoc.Index
import CrossDoc.Link.Internal
import CrossDoc.Link.XrefUri
import CrossDoc.Link.Rule
import CrossDoc.Link.External
import CrossDoc.CrossReference
import CrossDoc.External.Cache
import CrossDoc.External.Session
import CrossDoc.External.Reference
import CrossDoc.Embed.Fill
import CrossDoc.Embed.Lift
import CrossDoc.Embed.Resolution
import CrossDoc.Project.Resolution
import CrossDoc.Project.Disk
import CrossDoc.Project.Documents
import CrossDoc.CommandLine.Arguments
import CrossDoc.CommandLine.Slug
import CrossDoc.CommandLine
import CrossDoc.Main
import CrossDoc.Proofs.Text.Pieces
import CrossDoc.Proofs.Text.Slug
import CrossDoc.Proofs.SortedMap
import CrossDoc.Proofs.Json.StringLiteral
import CrossDoc.Proofs.Json.Numeral
import CrossDoc.Proofs.Json.Binary64
import CrossDoc.Proofs.Json.Reader
import CrossDoc.Proofs.Json.Draft
import CrossDoc.Proofs.Json.Order
import CrossDoc.Proofs.Json.Record
import CrossDoc.Proofs.Node.Record
import CrossDoc.Proofs.Node.Walk
import CrossDoc.Proofs.Node.Lineage
import CrossDoc.Proofs.Node.Prune
import CrossDoc.Proofs.Node.Visit
import CrossDoc.Proofs.Node.Path
import CrossDoc.Proofs.Node.Order
import CrossDoc.Proofs.Node.Changes
import CrossDoc.Proofs.Node.Collected
import CrossDoc.Proofs.Node.Section
import CrossDoc.Proofs.Node.Extent
import CrossDoc.Proofs.Node.Carried
import CrossDoc.Proofs.Target.Visit
import CrossDoc.Proofs.Target.Enumeration
import CrossDoc.Proofs.Target.SectionNumber
import CrossDoc.Proofs.Target.Numbers
import CrossDoc.Proofs.Target.Again
import CrossDoc.Proofs.Target.Selected
import CrossDoc.Proofs.Target.ReferenceText
import CrossDoc.Proofs.Index
import CrossDoc.Proofs.Index.Registered
import CrossDoc.Proofs.CrossReference
import CrossDoc.Proofs.Target.Url
import CrossDoc.Proofs.Target.Anchors
import CrossDoc.Proofs.CrossReference.Url
import CrossDoc.Proofs.CrossReference.Account
import CrossDoc.Proofs.Link.Promises
import CrossDoc.Proofs.Link.Account
import CrossDoc.Proofs.Link.Again
import CrossDoc.Proofs.Link.Destination
import CrossDoc.Proofs.Link.XrefUri
import CrossDoc.Proofs.Link.External
import CrossDoc.Proofs.Link.Order
import CrossDoc.Proofs.Link.RelativePath
import CrossDoc.Proofs.Link.Internal
import CrossDoc.Proofs.Embed.Lift
import CrossDoc.Proofs.Embed.Splice
import CrossDoc.Proofs.Embed.Trace
import CrossDoc.Proofs.Embed.Elided
import CrossDoc.Proofs.Embed.Settled
import CrossDoc.Proofs.Embed.Origin
import CrossDoc.Proofs.Embed.Filling
import CrossDoc.Proofs.Embed.Unresolved
import CrossDoc.Proofs.Embed.Entering
import CrossDoc.Proofs.Embed.Answers
import CrossDoc.Proofs.Embed.Fill
import CrossDoc.Proofs.Embed.Anonymous
import CrossDoc.Proofs.Embed.Content
import CrossDoc.Proofs.Embed.Fate
import CrossDoc.Proofs.Embed.Own
import CrossDoc.Proofs.Embed.Target
import CrossDoc.Proofs.Embed.Lifted
import CrossDoc.Proofs.Embed.Wrapper
import CrossDoc.Proofs.Embed.Outline
import CrossDoc.Proofs.Embed.Again
import CrossDoc.Proofs.External.Cache
import CrossDoc.Proofs.External.Desk
import CrossDoc.Proofs.External.Session
import CrossDoc.Proofs.External.Reference
import CrossDoc.Proofs.External.Again
import CrossDoc.Proofs.Embed.Remote
import CrossDoc.Proofs.Embed.Rebase
import CrossDoc.Proofs.Embed.Books
import CrossDoc.Proofs.DependencyGraph
import CrossDoc.Proofs.DependencyGraph.Assembly
import CrossDoc.Proofs.Records
import CrossDoc.Proofs.Texts
import CrossDoc.Proofs.Project.Stages
import CrossDoc.Proofs.Embed.Destination
import CrossDoc.Proofs.Project.Order
import CrossDoc.Proofs.Project.Uncounted
import CrossDoc.Proofs.Project.Rebuild
import CrossDoc.Proofs.Project.Anchors
import CrossDoc.Proofs.Project.Embeds
import CrossDoc.Proofs.Project.Disk
import CrossDoc.Proofs.Project.Slugs
import CrossDoc.Proofs.Project.Written
