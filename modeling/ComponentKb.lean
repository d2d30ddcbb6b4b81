import ComponentKb.Lib.Runs
import ComponentKb.Imports.Turn
import ComponentKb.Media.Worker
import ComponentKb.Legacy.Bundle
import ComponentKb.Imports.Revive
import ComponentKb.Media.Revive
import ComponentKb.Dispatch.Row
import ComponentKb.Dispatch.World
import ComponentKb.Dispatch.Strand
import ComponentKb.Dispatch.Acknowledge
import ComponentKb.Editor.Sync
import ComponentKb.Editor.Conflict
import ComponentKb.Editor.Edits
import ComponentKb.Catalog.Numbers
import ComponentKb.Lib.Checked
import ComponentKb.Lib.Table
import ComponentKb.Lib.Holdings
import ComponentKb.Catalog.Card
import ComponentKb.Catalog.Service
import ComponentKb.Catalog.Merge
import ComponentKb.Catalog.Requests
import ComponentKb.Catalog.World
import ComponentKb.Catalog.Effects
import ComponentKb.Catalog.Visibility
import ComponentKb.Catalog.Publication
import ComponentKb.Catalog.Provenance
import ComponentKb.Catalog.Tokens
import ComponentKb.Catalog.Sharing
import ComponentKb.Catalog.Review
import ComponentKb.Catalog.Documents
import ComponentKb.Catalog.Restore
import ComponentKb.Catalog.Students
import ComponentKb.Catalog.Categories
import ComponentKb.Lib.Transactions
import ComponentKb.Auth.Accounts
import ComponentKb.Auth.Service
import ComponentKb.Auth.Commits
import ComponentKb.Auth.Programs
import ComponentKb.Auth.Administrators
import ComponentKb.Auth.Grants
import ComponentKb.Auth.Passwords
import ComponentKb.Auth.Throttle
import ComponentKb.Lib.Brackets
import ComponentKb.Imports.Sexpr
import ComponentKb.Legacy.Planning
import ComponentKb.Legacy.Specifications
import ComponentKb.Legacy.Items
import ComponentKb.Legacy.Bundles
import ComponentKb.Legacy.Confirmed
import ComponentKb.Lib.Batch
import ComponentKb.Catalog.Batch
import ComponentKb.Lib.Notation
import ComponentKb.Lib.Timestamp
import ComponentKb.Lib.Records
import ComponentKb.Catalog.Snapshot
import ComponentKb.Catalog.Approval
import ComponentKb.Catalog.Bookkeeping
import ComponentKb.Catalog.Shelf
import ComponentKb.Catalog.Site
import ComponentKb.Catalog.Quota
import ComponentKb.Lib.Journal
import ComponentKb.Imports.Review
import ComponentKb.Imports.History
import ComponentKb.Catalog.Confirmation
import ComponentKb.Imports.Admission
import ComponentKb.Lib.Passing
import ComponentKb.Pipeline.Facts
import ComponentKb.Pipeline.Context
import ComponentKb.Lib.Ranking
import ComponentKb.Pipeline.Identity
import ComponentKb.Pipeline.Resolver
import ComponentKb.Pipeline.Resolution
import ComponentKb.Pipeline.Enrichment
import ComponentKb.Lib.Index
import ComponentKb.Pipeline.Persistence
import ComponentKb.Pipeline.Lineage
import ComponentKb.Catalog.Listing
import ComponentKb.Lib.Tiling
import ComponentKb.Media.Containers
import ComponentKb.Lib.Fractions
import ComponentKb.Media.Probe
import ComponentKb.Imports.Urls
import ComponentKb.Imports.Kicad
import ComponentKb.Imports.Transport
import ComponentKb.Imports.Acquisition
import ComponentKb.Catalog.Quantities
import ComponentKb.Catalog.Measures
import ComponentKb.Catalog.Widths
import ComponentKb.Lib.Utf8
import ComponentKb.Imports.Canonical
import ComponentKb.Imports.Approved
import ComponentKb.Catalog.Manifests
import ComponentKb.Legacy.Conservative
import ComponentKb.Lib.Splitting
import ComponentKb.Imports.Drafts
import ComponentKb.Lib.Spelling
import ComponentKb.Lib.Numerals
import ComponentKb.Pipeline.Values
import ComponentKb.Pipeline.Units
import ComponentKb.Lib.Sorting
import ComponentKb.Imports.Metrics
import ComponentKb.Catalog.Scoring
import ComponentKb.Lib.Incremental
import ComponentKb.Pipeline.KicadIndex
import ComponentKb.Pipeline.Matcher
import ComponentKb.Lib.Merging
import ComponentKb.Pipeline.Normalization
import ComponentKb.Lib.JsonText
import ComponentKb.Pipeline.KicadArtifact
import ComponentKb.Lib.Eviction
import ComponentKb.Editor.Storage
import ComponentKb.Editor.Specifications
import ComponentKb.Legacy.Finished
import ComponentKb.Imports.Budget
import ComponentKb.Media.Budget
import ComponentKb.Deduplication.Generation
import ComponentKb.Deduplication.Review
