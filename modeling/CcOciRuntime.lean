import CcOciRuntime.Proxy.Registration
import CcOciRuntime.Proxy.Attachment
import CcOciRuntime.Runtime.SectionOrder
import CcOciRuntime.Runtime.DeleteRetry
import CcOciRuntime.Runtime.HookPhases
import CcOciRuntime.Runtime.Recreate
import CcOciRuntime.Proxy.Resources
import CcOciRuntime.Runtime.HookRunner
import CcOciRuntime.Runtime.PodAnnotations
import CcOciRuntime.Runtime.IoBase
import CcOciRuntime.Runtime.MountPaths
import CcOciRuntime.Runtime.RmCommand
import CcOciRuntime.Runtime.QmpCommands
import CcOciRuntime.Runtime.ConfigCheck
import CcOciRuntime.Shim.Signals
import CcOciRuntime.Runtime.VmArgs
import CcOciRuntime.Runtime.TagExpansion
import CcOciRuntime.Runtime.SectionEntries
import CcOciRuntime.Runtime.UserIds
import CcOciRuntime.Runtime.StartPod
import CcOciRuntime.Runtime.CreatedDirs
import CcOciRuntime.Proxy.Teardown
import CcOciRuntime.Runtime.ShimHandshake
import CcOciRuntime.Runtime.ExecCommand
