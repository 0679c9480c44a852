import NuageKubemon.Subnet.Address
import NuageKubemon.Subnet.Arith
import NuageKubemon.Subnet.Merge
import NuageKubemon.Subnet.Format
import NuageKubemon.Subnet.Grammar
import NuageKubemon.Pool.Basic
import NuageKubemon.Pool.Free
import NuageKubemon.Pool.Alloc
import NuageKubemon.Pool.Run
import NuageKubemon.Client.State
import NuageKubemon.Client.Handlers
import NuageKubemon.Client.Respects
import NuageKubemon.Client.Walk
import NuageKubemon.Client.Safety
import NuageKubemon.Client.Priority
import NuageKubemon.Client.Subnets
import NuageKubemon.Pool.Fragment
import NuageKubemon.Client.Cluster
import NuageKubemon.Pool.Allocator
import NuageKubemon.Client.Contract
import NuageKubemon.Client.Records
