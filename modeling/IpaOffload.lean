import IpaOffload.Bridge.Allowlist
import IpaOffload.Bridge.Attributes
import IpaOffload.Bridge.Config
import IpaOffload.Bridge.FdCache
import IpaOffload.Bridge.Ioctl
import IpaOffload.Bridge.IoctlLaws
import IpaOffload.Bridge.Log
import IpaOffload.Bridge.Process
import IpaOffload.Bridge.Query
import IpaOffload.Bridge.QueryDecision
import IpaOffload.Bridge.QueryLaws
import IpaOffload.Bridge.RuleFaithful
import IpaOffload.Bridge.RuleLaws
import IpaOffload.Bridge.RuleService
import IpaOffload.Bridge.RuleV2
import IpaOffload.Bridge.Rules
import IpaOffload.Bridge.Session
import IpaOffload.Bridge.Transparency
import IpaOffload.Bridge.Uapi
import IpaOffload.Bridge.Untranslated
import IpaOffload.Dedupe.Concurrent
import IpaOffload.Dedupe.Copies
import IpaOffload.Dedupe.Script
import IpaOffload.Dedupe.Sequential
import IpaOffload.DeviceTree.Enabler
import IpaOffload.DeviceTree.EnablerLaws
import IpaOffload.DeviceTree.FailedLoad
import IpaOffload.DeviceTree.Reload
import IpaOffload.DeviceTree.Tree
import IpaOffload.Ioss.AllOrNothing
import IpaOffload.Ioss.BuffPa
import IpaOffload.Ioss.Descriptors
import IpaOffload.Ioss.Injected
import IpaOffload.Ioss.Iova
import IpaOffload.Ioss.Ipa
import IpaOffload.Ioss.IpaLaws
import IpaOffload.Ioss.Lifecycle
import IpaOffload.Ioss.Msix
import IpaOffload.Ioss.Net
import IpaOffload.Ioss.Of
import IpaOffload.Ioss.OfLaws
import IpaOffload.Ioss.Online
import IpaOffload.Ioss.PmOps
import IpaOffload.Ioss.Preflight
import IpaOffload.Ioss.R8125
import IpaOffload.Ioss.R8125Laws
import IpaOffload.Ioss.Refresh
import IpaOffload.Ioss.Release
import IpaOffload.Ioss.RingFill
import IpaOffload.Ioss.RingMem
import IpaOffload.Ioss.RingParts
import IpaOffload.Ioss.RingRuns
import IpaOffload.Ioss.Tcm
import IpaOffload.Lib.ByteMem
import IpaOffload.Lib.Fallible
import IpaOffload.Lib.FirstMatch
import IpaOffload.Lib.Runs
import IpaOffload.Lib.Scan
import IpaOffload.Lib.StateFrame
import IpaOffload.Lib.Triple
import IpaOffload.Loader.InOrder
import IpaOffload.Loader.LoadModules
import IpaOffload.Loader.Overlap
import IpaOffload.Smmu.Pmds
import IpaOffload.Watchdog.Healthcheck
import IpaOffload.Watchdog.HealthcheckLaws
import IpaOffload.Watchdog.LogBound
import IpaOffload.Watchdog.Recovery
