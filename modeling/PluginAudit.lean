import PluginAudit.Main
import PluginAudit.Proofs.AcceptedIssues
import PluginAudit.Proofs.BlankLines
import PluginAudit.Proofs.CallSites
import PluginAudit.Proofs.ChangedCalls
import PluginAudit.Proofs.ConflictScopes
import PluginAudit.Proofs.DamagedResults
import PluginAudit.Proofs.FindingFilters
import PluginAudit.Proofs.GroupedImports
import PluginAudit.Proofs.GuardedBlocks
import PluginAudit.Proofs.LinkedRoots
import PluginAudit.Proofs.LintMemo
import PluginAudit.Proofs.LintReports
import PluginAudit.Proofs.Literals
import PluginAudit.Proofs.LoadedExemptions
import PluginAudit.Proofs.OverlayMerging
import PluginAudit.Proofs.PluginHeaders
import PluginAudit.Proofs.ReportConsistency
import PluginAudit.Proofs.SarifResults
import PluginAudit.Proofs.SettingsDocuments
import PluginAudit.Proofs.SettingsLayers
import PluginAudit.Proofs.SnapshotFiles
import PluginAudit.Proofs.SourceListing
import PluginAudit.Proofs.TemplateAgreement
import PluginAudit.Proofs.TemplateLocation
